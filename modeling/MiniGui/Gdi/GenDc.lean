import MiniGui.Gdi.MemDc
import MiniGui.Gdi.WndTree

/-!
Clipping of the DC of a window. The local clip region is kept in device coordinates, and an empty list of
rectangles stands for the whole plane. What is drawn to is the effective clip region, which some calls change
along with the local one and others build anew.
-/

namespace MiniGui.Dc

open ClipRgn

open Set (ext_iff inter_univ mem_inter_iff mem_sdiff univ univ_inter)

variable {ι : Type} [DecidableEq ι] {pdc : Dc ι} {env : GdiEnv ι}

def area (env : GdiEnv ι) (pdc : Dc ι) : Rect :=
  (pdc.updateDevRC env).devRC

def withinAncestors (env : GdiEnv ι) (pdc : Dc ι) : Set (Int × Int) :=
  match pdc.hwnd with
  | none => Set.univ
  | some h =>
    if (env.tree.wnd h).isControl && !(env.tree.wnd h).ctrlAsMainWin then
      { p | ∀ a ∈ env.tree.ancestors h, p ∈ (env.tree.wndClientRect (some a)).pixels }
    else
      Set.univ

def seen (env : GdiEnv ι) (pdc : Dc ι) : Set (Int × Int) :=
  env.gcrInfo.crgn.pixels ∩ ((pdc.area env).pixels ∩ pdc.withinAncestors env)

def onScreen (pdc : Dc ι) (s : Set (Int × Int)) : Set (Int × Int) :=
  shift pdc.devRC.left pdc.devRC.top s

structure GenOk (env : GdiEnv ι) (pdc : Dc ι) : Prop where
  isGen : pdc.dcType = .gendc
  devRC : pdc.devRC = pdc.area env
  lcrgn : pdc.lcrgn.WellFormed
  ecrgn : pdc.ecrgn.WellFormed

structure EnvOk (env : GdiEnv ι) : Prop where
  tree : env.tree.Valid
  crgn : env.gcrInfo.crgn.WellFormed

omit [DecidableEq ι] in
theorem onScreen_inter (s t : Set (Int × Int)) : pdc.onScreen (s ∩ t) = pdc.onScreen s ∩ pdc.onScreen t := by
  rfl

omit [DecidableEq ι] in
theorem onScreen_union (s t : Set (Int × Int)) : pdc.onScreen (s ∪ t) = pdc.onScreen s ∪ pdc.onScreen t := by
  rfl

omit [DecidableEq ι] in
theorem onScreen_sdiff (s t : Set (Int × Int)) : pdc.onScreen (s \ t) = pdc.onScreen s \ pdc.onScreen t := by
  rfl

omit [DecidableEq ι] in
theorem onScreen_mono {s t : Set (Int × Int)} : pdc.onScreen s ⊆ pdc.onScreen t ↔ s ⊆ t := by
  constructor
  . intro h p hp
    have hmem : (p.1 + pdc.devRC.left, p.2 + pdc.devRC.top) ∈ pdc.onScreen t := by
      apply h
      unfold onScreen
      rw [mem_shift]
      simpa using hp
    unfold onScreen at hmem
    rw [mem_shift] at hmem
    simpa using hmem
  . intro h p hp
    exact h hp

omit [DecidableEq ι] in
theorem dp2sp_pixels (h : pdc.dcType = .gendc) (rc : Rect) : (pdc.dp2sp rc).pixels = pdc.onScreen rc.pixels := by
  unfold dp2sp
  rw [if_neg (by rw [h]; decide)]
  apply offsetRect_pixels

theorem minimal_pixels (henv : EnvOk env)
    : (pdc.minimal env).pixels = pdc.devRC.pixels ∩ pdc.withinAncestors env := by
  unfold minimal withinAncestors
  cases pdc.hwnd with
  | none => rw [inter_univ]
  | some h =>
    dsimp only
    split
    . next hcut =>
      rw [Bool.and_eq_true] at hcut
      rcases WndTree.restrictControlECRGN_spec henv.tree hcut.1 pdc.devRC with ⟨m, hm, hpixels⟩
      rw [hm, Option.getD_some, hpixels]
    . rw [inter_univ]

theorem regenerate_spec (henv : EnvOk env) (hgen : pdc.dcType = .gendc) (hl : pdc.lcrgn.WellFormed)
    : GenOk env (pdc.regenerate env)
        ∧ (pdc.regenerate env).ecrgn.pixels
            = (if pdc.lcrgn.rects = [] then univ else (pdc.regenerate env).onScreen pdc.lcrgn.pixels)
              ∩ pdc.seen env := by
  have hcopy := @copyOf_spec pdc.ecrgn _ hl
  unfold regenerate
  extract_lets pdc1 ecrgn1 ecrgn2 ecrgn3
  have hgen1 : pdc1.dcType = .gendc := hgen
  have hdp : pdc1.dp2sp = fun r => offsetRect r pdc1.devRC.left pdc1.devRC.top := by
    funext r
    unfold dp2sp
    rw [if_neg (by rw [hgen1]; decide)]
  have hmin := @minimal_pixels _ _ pdc1 _ henv
  have hspec3 : ecrgn3.WellFormed
      ∧ ecrgn3.pixels
          = (if pdc.lcrgn.rects = [] then univ else pdc1.onScreen pdc.lcrgn.pixels)
            ∩ env.gcrInfo.crgn.pixels := by
    simp only [ecrgn3]
    have hlcrgn : pdc1.lcrgn = pdc.lcrgn := rfl
    rw [hlcrgn]
    split
    . have hgcr := @copyOf_spec ecrgn2 _ henv.crgn
      rw [univ_inter]
      exact ⟨hgcr.1, hgcr.2.1⟩
    rename_i hne
    have hmoved : { ecrgn2 with rcBound := pdc1.dp2sp ecrgn2.rcBound }
        = offsetRegion ecrgn1 pdc1.devRC.left pdc1.devRC.top := by
      have hrects : ecrgn1.rects ≠ [] := by
        have heq : ecrgn1.rects = pdc.lcrgn.rects := hcopy.2.2
        rw [heq]
        exact hne
      unfold offsetRegion
      rw [if_neg hrects]
      simp only [ecrgn2, hdp]
    rw [hmoved]
    have hoffset := @offsetRegion_spec ecrgn1 hcopy.1 pdc1.devRC.left pdc1.devRC.top
    have hboth := intersectWith_spec hoffset.1 henv.crgn
    refine ⟨hboth.1, ?_⟩
    rw [hboth.2, hoffset.2]
    have heq : ecrgn1.pixels = pdc.lcrgn.pixels := hcopy.2.1
    rw [heq]
    rfl
  have hcut := @intersectClipRect_spec _ (pdc1.minimal env) hspec3.1
  refine ⟨⟨hgen, rfl, hl, hcut.1⟩, ?_⟩
  rw [hcut.2, hspec3.2, hmin, Set.inter_assoc]
  rfl

omit [DecidableEq ι] in
theorem resetLcrgn_spec (hl : pdc.lcrgn.WellFormed) : pdc.resetLcrgn.lcrgn.WellFormed
        ∧ pdc.resetLcrgn.lcrgn.pixels = (if pdc.lcrgn.rects = [] then wholeSquare.pixels else pdc.lcrgn.pixels)
        ∧ pdc.resetLcrgn = { pdc with lcrgn := pdc.resetLcrgn.lcrgn } := by
  unfold resetLcrgn
  split
  . rw [setClipRgn_eq, if_neg (by decide)]
    refine ⟨?_, ?_, rfl⟩
    . apply wellFormed_single
      unfold Rect.Proper wholeSquare
      decide
    . apply pixels_single
  . exact ⟨hl, rfl, rfl⟩

def clipLocally (clip : Set (Int × Int)) (op : ClipOp) : Set (Int × Int) :=
  match op with
  | .excludeRect rc => clip \ (normalizeRect rc).pixels
  | .includeRect rc => clip ∪ (normalizeRect rc).pixels
  | .rectIntersect rc => clip ∩ (normalizeRect rc).pixels
  | .selectRect none => Set.univ
  | .selectRect (some rc) => (normalizeRect rc).pixels
  | .selectRegion rgn => rgn.pixels
  | .generate _ => clip

def ClipExact (env : GdiEnv ι) (pdc : Dc ι) (clip : Set (Int × Int)) : Prop :=
  pdc.ecrgn.pixels = pdc.onScreen clip ∩ pdc.seen env
    ∧ (pdc.dcGenerateECRgn env true).2.ecrgn.pixels = pdc.ecrgn.pixels

def KeepsClip (env : GdiEnv ι) (pdc : Dc ι) (op : ClipOp) : Prop :=
  match op with
  | .excludeRect rc =>
    let rc := normalizeRect rc
    if isRectEmpty rc then
      True
    else if pdc.lcrgn.rects = [] then
      (wholeSquare.pixels ⊆ rc.pixels → Disjoint (pdc.seen env) (pdc.onScreen rc.pixels))
        ∧ (¬wholeSquare.pixels ⊆ rc.pixels → pdc.seen env \ pdc.onScreen rc.pixels ⊆ pdc.onScreen wholeSquare.pixels)
    else
      pdc.lcrgn.pixels ⊆ rc.pixels → pdc.seen env = ∅
  | .includeRect rc =>
    let rc := normalizeRect rc
    isRectEmpty rc ∨ pdc.lcrgn.rects ≠ [] ∨ pdc.seen env ⊆ pdc.onScreen rc.pixels
  | .rectIntersect rc =>
    let rc := normalizeRect rc
    if isRectEmpty rc then
      pdc.ecrgn.pixels = ∅
    else if pdc.lcrgn.rects = [] then
      (Disjoint wholeSquare.pixels rc.pixels → pdc.seen env ⊆ pdc.onScreen rc.pixels)
        ∧ (¬Disjoint wholeSquare.pixels rc.pixels →
            pdc.seen env ∩ pdc.onScreen rc.pixels ⊆ pdc.onScreen wholeSquare.pixels)
    else
      Disjoint pdc.lcrgn.pixels rc.pixels → pdc.seen env = ∅
  | .selectRect none => True
  | .selectRect (some rc) => isRectEmpty (normalizeRect rc) → pdc.ecrgn.pixels = ∅
  | .selectRegion rgn => rgn.rects = [] → pdc.seen env = ∅
  | .generate _ => True

structure SameWindow (env : GdiEnv ι) (pdc pdc' : Dc ι) : Prop where
  genOk : GenOk env pdc'
  hwnd : pdc'.hwnd = pdc.hwnd
  bIsClient : pdc'.bIsClient = pdc.bIsClient
  devRC : pdc'.devRC = pdc.devRC

omit [DecidableEq ι] in
theorem rects_eq_nil_iff {rgn : ClipRgn} (h : rgn.WellFormed) : rgn.rects = [] ↔ rgn.pixels = ∅ := by
  constructor
  . exact pixels_eq_empty
  intro hempty
  by_contra hne
  rcases List.exists_mem_of_ne_nil _ hne with ⟨r, hr⟩
  have hproper := h.banded.1 r hr
  have hmem : (r.left, r.top) ∈ rgn.pixels := by
    refine ⟨r, hr, ?_⟩
    unfold Rect.Mem
    omega
  rw [hempty] at hmem
  exact hmem

omit [DecidableEq ι] in
theorem SameWindow.seen {pdc' : Dc ι} (h : SameWindow env pdc pdc') : pdc'.seen env = pdc.seen env := by
  unfold Dc.seen Dc.area Dc.withinAncestors updateDevRC
  rw [h.hwnd, h.bIsClient]

omit [DecidableEq ι] in
theorem SameWindow.onScreen {pdc' : Dc ι} (h : SameWindow env pdc pdc') : pdc'.onScreen = pdc.onScreen := by
  funext s
  unfold Dc.onScreen
  rw [h.devRC]

theorem sameWindow_regenerate (henv : EnvOk env) (h : GenOk env pdc)
    : SameWindow env pdc (pdc.regenerate env)
        ∧ (pdc.lcrgn.pixels = ∅ → (pdc.regenerate env).ecrgn.pixels = pdc.seen env)
        ∧ (pdc.lcrgn.pixels ≠ ∅ →
            (pdc.regenerate env).ecrgn.pixels = pdc.onScreen pdc.lcrgn.pixels ∩ pdc.seen env) := by
  have hspec := regenerate_spec henv h.isGen h.lcrgn
  have hsame : SameWindow env pdc (pdc.regenerate env) := ⟨hspec.1, rfl, rfl, h.devRC.symm⟩
  refine ⟨hsame, ?_, ?_⟩
  . intro hempty
    rw [hspec.2, if_pos ((rects_eq_nil_iff h.lcrgn).mpr hempty), univ_inter]
  . intro hne
    rw [hspec.2, if_neg (fun hnil => hne ((rects_eq_nil_iff h.lcrgn).mp hnil)), hsame.onScreen]

theorem clipExact_iff (henv : EnvOk env) (h : GenOk env pdc) (clip : Set (Int × Int))
    : ClipExact env pdc clip
        ↔ pdc.ecrgn.pixels = pdc.onScreen clip ∩ pdc.seen env
            ∧ (pdc.lcrgn.pixels = ∅ → pdc.ecrgn.pixels = pdc.seen env)
            ∧ (pdc.lcrgn.pixels ≠ ∅ → pdc.ecrgn.pixels = pdc.onScreen pdc.lcrgn.pixels ∩ pdc.seen env) := by
  unfold ClipExact
  have hregen := sameWindow_regenerate henv h
  have heq : (pdc.dcGenerateECRgn env true).2 = pdc.regenerate env := rfl
  rw [heq]
  by_cases hempty : pdc.lcrgn.pixels = ∅
  . rw [hregen.2.1 hempty]
    simp only [hempty, ne_eq, not_true, false_implies, and_true, true_implies]
    rw [eq_comm (a := pdc.seen env)]
  . rw [hregen.2.2 hempty]
    simp only [hempty, ne_eq, not_false_iff, false_implies, true_and, true_implies]
    rw [eq_comm (b := pdc.ecrgn.pixels)]

theorem generate_spec (henv : EnvOk env) (h : GenOk env pdc) {lcrgn : ClipRgn} (hl : lcrgn.WellFormed)
    (clip : Set (Int × Int)) : let pdc' := ({ pdc with lcrgn }.dcGenerateECRgn env true).2
      SameWindow env pdc pdc'
        ∧ (ClipExact env pdc' clip
            ↔ (lcrgn.pixels = ∅ → pdc.onScreen clip ∩ pdc.seen env = pdc.seen env)
                ∧ (lcrgn.pixels ≠ ∅ →
                    pdc.onScreen clip ∩ pdc.seen env = pdc.onScreen lcrgn.pixels ∩ pdc.seen env)) := by
  intro pdc'
  have hok : GenOk env { pdc with lcrgn } := ⟨h.isGen, h.devRC, hl, h.ecrgn⟩
  have hregen := sameWindow_regenerate henv hok
  have hsame : SameWindow env pdc pdc' := ⟨hregen.1.genOk, rfl, rfl, hregen.1.devRC⟩
  refine ⟨hsame, ?_⟩
  rw [clipExact_iff henv hsame.genOk, hsame.seen, hsame.onScreen]
  have hlcrgn : pdc'.lcrgn = lcrgn := rfl
  have h1 : lcrgn.pixels = ∅ → pdc'.ecrgn.pixels = pdc.seen env := hregen.2.1
  have h2 : lcrgn.pixels ≠ ∅ → pdc'.ecrgn.pixels = pdc.onScreen lcrgn.pixels ∩ pdc.seen env := hregen.2.2
  rw [hlcrgn]
  by_cases hempty : lcrgn.pixels = ∅
  . rw [h1 hempty]
    simp only [hempty, ne_eq, not_true, false_implies, and_true, true_implies]
    exact eq_comm
  . rw [h2 hempty]
    simp only [hempty, ne_eq, not_false_iff, false_implies, true_and, true_implies, and_true]
    exact eq_comm

theorem incremental_spec (henv : EnvOk env) (h : GenOk env pdc) {lcrgn ecrgn : ClipRgn} (hl : lcrgn.WellFormed)
    (he : ecrgn.WellFormed) (clip : Set (Int × Int)) : let pdc' := { pdc with lcrgn, ecrgn }
      SameWindow env pdc pdc'
        ∧ (ClipExact env pdc' clip
            ↔ ecrgn.pixels = pdc.onScreen clip ∩ pdc.seen env
                ∧ (lcrgn.pixels = ∅ → ecrgn.pixels = pdc.seen env)
                ∧ (lcrgn.pixels ≠ ∅ → ecrgn.pixels = pdc.onScreen lcrgn.pixels ∩ pdc.seen env)) := by
  intro pdc'
  have hsame : SameWindow env pdc pdc' := ⟨⟨h.isGen, h.devRC, hl, he⟩, rfl, rfl, rfl⟩
  refine ⟨hsame, ?_⟩
  rw [clipExact_iff henv hsame.genOk, hsame.seen, hsame.onScreen]

/-!
The set algebra of the calls: `v` is what is seen of the window, `c` the clip region and `m` the local one on the
screen, `n` the rectangle of the call.
-/
section Sets

variable {α : Type} {v c m n q e : Set α} {p : Prop}

omit [DecidableEq ι] in
theorem sdiff_whole (h : v = c ∩ v)
    : (v \ n = (c \ n) ∩ v ∧ (p → v \ n = v) ∧ (¬p → v \ n = (q \ n) ∩ v))
        ↔ (p → Disjoint v n) ∧ (¬p → v \ n ⊆ q) := by
  have hclip : v \ n = (c \ n) ∩ v := by
    ext x
    have hx := ext_iff.mp h x
    simp only [mem_sdiff, mem_inter_iff] at hx ⊢
    tauto
  have hsquare : v \ n = (q \ n) ∩ v ↔ v \ n ⊆ q := by
    constructor
    . intro heq x hx
      rw [heq] at hx
      exact hx.1.1
    intro hsub
    ext x
    have hx := @hsub x
    simp only [mem_sdiff, mem_inter_iff] at hx ⊢
    tauto
  rw [hsquare, sdiff_eq_left]
  tauto

theorem sdiff_part (h : m ∩ v = c ∩ v) (hp : p → m ⊆ n)
    : ((m ∩ v) \ n = (c \ n) ∩ v ∧ (p → (m ∩ v) \ n = v) ∧ (¬p → (m ∩ v) \ n = (m \ n) ∩ v))
        ↔ (p → v = ∅) := by
  have hclip : (m ∩ v) \ n = (c \ n) ∩ v := by
    ext x
    have hx := ext_iff.mp h x
    simp only [mem_sdiff, mem_inter_iff] at hx ⊢
    tauto
  have hmask : (m ∩ v) \ n = (m \ n) ∩ v := by
    ext x
    simp only [mem_sdiff, mem_inter_iff]
    tauto
  have hnone : p → ((m ∩ v) \ n = v ↔ v = ∅) := by
    intro hyes
    have hempty : (m ∩ v) \ n = ∅ := by
      rw [Set.sdiff_eq_empty]
      exact Set.inter_subset_left.trans (hp hyes)
    rw [hempty]
    exact eq_comm
  tauto

theorem inter_whole (h : v = c ∩ v)
    : (v ∩ n = (c ∩ n) ∩ v ∧ (p → v ∩ n = v) ∧ (¬p → v ∩ n = (q ∩ n) ∩ v))
        ↔ (p → v ⊆ n) ∧ (¬p → v ∩ n ⊆ q) := by
  have hclip : v ∩ n = (c ∩ n) ∩ v := by
    ext x
    have hx := ext_iff.mp h x
    simp only [mem_inter_iff] at hx ⊢
    tauto
  have hsquare : v ∩ n = (q ∩ n) ∩ v ↔ v ∩ n ⊆ q := by
    constructor
    . intro heq x hx
      rw [heq] at hx
      exact hx.1.1
    intro hsub
    ext x
    have hx := @hsub x
    simp only [mem_inter_iff] at hx ⊢
    tauto
  rw [hsquare, Set.inter_eq_left]
  tauto

theorem inter_part (h : m ∩ v = c ∩ v) (hp : p → Disjoint m n)
    : ((m ∩ v) ∩ n = (c ∩ n) ∩ v ∧ (p → (m ∩ v) ∩ n = v) ∧ (¬p → (m ∩ v) ∩ n = (m ∩ n) ∩ v))
        ↔ (p → v = ∅) := by
  have hclip : (m ∩ v) ∩ n = (c ∩ n) ∩ v := by
    ext x
    have hx := ext_iff.mp h x
    simp only [mem_inter_iff] at hx ⊢
    tauto
  have hmask : (m ∩ v) ∩ n = (m ∩ n) ∩ v := by
    ext x
    simp only [mem_inter_iff]
    tauto
  have hnone : p → ((m ∩ v) ∩ n = v ↔ v = ∅) := by
    intro hyes
    have hempty : (m ∩ v) ∩ n = ∅ := by
      rw [hmask, (hp hyes).inter_eq, Set.empty_inter]
    rw [hempty]
    exact eq_comm
  tauto

end Sets

section Step

variable {clip : Set (Int × Int)}

theorem excludeClipRect_exact (henv : EnvOk env) (h : GenOk env pdc) (hexact : ClipExact env pdc clip) (rc : Rect)
    : SameWindow env pdc (pdc.excludeClipRect rc)
        ∧ (ClipExact env (pdc.excludeClipRect rc) (clip \ (normalizeRect rc).pixels)
            ↔ KeepsClip env pdc (.excludeRect rc)) := by
  unfold excludeClipRect KeepsClip
  dsimp only
  generalize normalizeRect rc = n
  split
  . next hempty =>
    rw [pixels_of_isRectEmpty hempty, Set.sdiff_empty]
    exact ⟨⟨h, rfl, rfl, rfl⟩, iff_of_true hexact trivial⟩
  have hreset := resetLcrgn_spec h.lcrgn
  have hl := @subtractClipRect_wellFormed _ n hreset.1
  have he := @subtractClipRect_wellFormed _ (pdc.dp2sp n) h.ecrgn
  rw [dp2sp_pixels h.isGen] at he
  rw [hreset.2.1] at hl
  rw [if_pos h.isGen, hreset.2.2]
  have hdp : ∀ rc, Dc.dp2sp { pdc with lcrgn := pdc.resetLcrgn.lcrgn } rc = pdc.dp2sp rc := fun _ => rfl
  rw [hdp]
  have hspec := incremental_spec henv h hl.1 he.1 (clip \ n.pixels)
  refine ⟨hspec.1, ?_⟩
  rw [hspec.2, hl.2, he.2, onScreen_sdiff]
  rw [clipExact_iff henv h] at hexact
  rcases hexact with ⟨hclip, hall, hpart⟩
  by_cases hnil : pdc.lcrgn.rects = []
  . have hecrgn := hall (pixels_eq_empty hnil)
    rw [if_pos hnil, if_pos hnil, onScreen_sdiff, hecrgn, ne_eq, Set.sdiff_eq_empty]
    rw [hecrgn] at hclip
    exact sdiff_whole hclip
  have hecrgn := hpart (fun hempty => hnil ((rects_eq_nil_iff h.lcrgn).mpr hempty))
  rw [if_neg hnil, if_neg hnil, onScreen_sdiff, hecrgn, ne_eq, Set.sdiff_eq_empty]
  rw [hecrgn] at hclip
  exact sdiff_part hclip onScreen_mono.mpr

theorem clipRectIntersect_exact (henv : EnvOk env) (h : GenOk env pdc) (hexact : ClipExact env pdc clip) (rc : Rect)
    : SameWindow env pdc (pdc.clipRectIntersect rc)
        ∧ (ClipExact env (pdc.clipRectIntersect rc) (clip ∩ (normalizeRect rc).pixels)
            ↔ KeepsClip env pdc (.rectIntersect rc)) := by
  unfold clipRectIntersect KeepsClip
  dsimp only
  generalize normalizeRect rc = n
  split
  . next hempty =>
    rw [pixels_of_isRectEmpty hempty, Set.inter_empty]
    refine ⟨⟨h, rfl, rfl, rfl⟩, ?_⟩
    have hnone : pdc.onScreen ∅ = ∅ := rfl
    rw [ClipExact, hnone, Set.empty_inter]
    exact and_iff_left hexact.2
  have hreset := resetLcrgn_spec h.lcrgn
  have hl := @intersectClipRect_spec _ n hreset.1
  have he := @intersectClipRect_spec _ (pdc.dp2sp n) h.ecrgn
  rw [dp2sp_pixels h.isGen] at he
  rw [hreset.2.1] at hl
  rw [if_pos h.isGen, hreset.2.2]
  have hdp : ∀ rc, Dc.dp2sp { pdc with lcrgn := pdc.resetLcrgn.lcrgn } rc = pdc.dp2sp rc := fun _ => rfl
  rw [hdp]
  have hspec := incremental_spec henv h hl.1 he.1 (clip ∩ n.pixels)
  refine ⟨hspec.1, ?_⟩
  rw [hspec.2, hl.2, he.2, onScreen_inter]
  rw [clipExact_iff henv h] at hexact
  rcases hexact with ⟨hclip, hall, hpart⟩
  by_cases hnil : pdc.lcrgn.rects = []
  . have hecrgn := hall (pixels_eq_empty hnil)
    rw [if_pos hnil, if_pos hnil, onScreen_inter, hecrgn, ne_eq, ← Set.disjoint_iff_inter_eq_empty]
    rw [hecrgn] at hclip
    exact inter_whole hclip
  have hecrgn := hpart (fun hempty => hnil ((rects_eq_nil_iff h.lcrgn).mpr hempty))
  rw [if_neg hnil, if_neg hnil, onScreen_inter, hecrgn, ne_eq, ← Set.disjoint_iff_inter_eq_empty]
  rw [hecrgn] at hclip
  apply inter_part hclip
  intro hdisjoint
  rw [Set.disjoint_iff_inter_eq_empty] at hdisjoint ⊢
  rw [← onScreen_inter, hdisjoint]
  rfl

omit [DecidableEq ι] in
theorem nonempty_of_not_isRectEmpty {rc : Rect} (h : ¬isRectEmpty (normalizeRect rc) = true)
    : (normalizeRect rc).Proper ∧ (normalizeRect rc).pixels ≠ ∅ := by
  have hproper := normalizeRect_proper (by simpa using h)
  refine ⟨hproper, ?_⟩
  have hsingle := (rects_eq_nil_iff (wellFormed_single hproper)).not
  rw [pixels_single] at hsingle
  apply hsingle.mp
  simp [single]

theorem includeClipRect_exact (henv : EnvOk env) (h : GenOk env pdc) (hexact : ClipExact env pdc clip) (rc : Rect)
    : SameWindow env pdc (pdc.includeClipRect env rc)
        ∧ (ClipExact env (pdc.includeClipRect env rc) (clip ∪ (normalizeRect rc).pixels)
            ↔ KeepsClip env pdc (.includeRect rc)) := by
  unfold includeClipRect KeepsClip
  dsimp only
  split
  . next hempty =>
    rw [pixels_of_isRectEmpty hempty, Set.union_empty]
    exact ⟨⟨h, rfl, rfl, rfl⟩, iff_of_true hexact (Or.inl hempty)⟩
  rename_i hrect
  have hn := nonempty_of_not_isRectEmpty hrect
  generalize normalizeRect rc = n at hrect hn ⊢
  rw [if_pos h.isGen]
  rw [clipExact_iff henv h] at hexact
  rcases hexact with ⟨hclip, hall, hpart⟩
  by_cases hnil : pdc.lcrgn.rects = []
  . rw [if_neg (fun hne => hne hnil), setClipRgn_eq, if_neg hrect]
    have hspec := generate_spec henv h (wellFormed_single hn.1) (clip ∪ n.pixels)
    refine ⟨hspec.1, ?_⟩
    have hecrgn := hall (pixels_eq_empty hnil)
    rw [hecrgn] at hclip
    rw [hspec.2, pixels_single, onScreen_union]
    simp only [hn.2, false_implies, true_and, ne_eq, not_false_iff, true_implies, hrect, hnil, not_true, false_or]
    have hleft : (pdc.onScreen clip ∪ pdc.onScreen n.pixels) ∩ pdc.seen env = pdc.seen env := by
      rw [Set.inter_eq_right]
      apply Set.subset_union_of_subset_left
      rw [hclip]
      exact Set.inter_subset_left
    rw [hleft, eq_comm, Set.inter_eq_right]
    simp
  rw [if_pos hnil]
  have hadd := addClipRect_spec h.lcrgn hn.1
  have hspec := generate_spec henv h hadd.1 (clip ∪ n.pixels)
  refine ⟨hspec.1, ?_⟩
  have hecrgn := hpart (fun hempty => hnil ((rects_eq_nil_iff h.lcrgn).mpr hempty))
  rw [hecrgn] at hclip
  have hne : ¬pdc.lcrgn.pixels ∪ n.pixels = ∅ := by
    rw [Set.union_empty_iff]
    exact fun hboth => hn.2 hboth.2
  rw [hspec.2, hadd.2, onScreen_union, onScreen_union]
  simp only [hne, false_implies, true_and, ne_eq, not_false_iff, true_implies, hnil, true_or, or_true, iff_true]
  rw [Set.union_inter_distrib_right, Set.union_inter_distrib_right, hclip]

theorem selectClipRect_exact (henv : EnvOk env) (h : GenOk env pdc) (hexact : ClipExact env pdc clip)
    (prc : Option Rect) : SameWindow env pdc (pdc.selectClipRect env prc)
        ∧ (ClipExact env (pdc.selectClipRect env prc) (clipLocally clip (.selectRect prc))
            ↔ KeepsClip env pdc (.selectRect prc)) := by
  unfold selectClipRect KeepsClip clipLocally
  cases prc with
  | none =>
    unfold selectRect
    rw [if_pos h.isGen]
    have hspec := generate_spec henv h (@wellFormed_of_nil emptyClipRgn rfl) univ
    refine ⟨hspec.1, ?_⟩
    rw [hspec.2]
    have hempty : emptyClipRgn.pixels = ∅ := pixels_eq_empty rfl
    have huniv : pdc.onScreen univ = univ := rfl
    simp [hempty, huniv]
  | some rc =>
    dsimp only
    split
    . next hempty =>
      rw [pixels_of_isRectEmpty hempty]
      refine ⟨⟨h, rfl, rfl, rfl⟩, ?_⟩
      have hnone : pdc.onScreen ∅ = ∅ := rfl
      rw [ClipExact, hnone, Set.empty_inter]
      simp only [hempty, true_implies]
      exact and_iff_left hexact.2
    rename_i hrect
    have hn := nonempty_of_not_isRectEmpty hrect
    generalize normalizeRect rc = n at hrect hn ⊢
    unfold selectRect
    rw [if_pos h.isGen]
    dsimp only
    rw [setClipRgn_eq, if_neg hrect]
    have hspec := generate_spec henv h (wellFormed_single hn.1) n.pixels
    refine ⟨hspec.1, ?_⟩
    rw [hspec.2, pixels_single]
    simp [hn.2, hrect]

theorem selectClipRegion_exact (henv : EnvOk env) (h : GenOk env pdc) {rgn : ClipRgn} (hrgn : rgn.WellFormed)
    : SameWindow env pdc (pdc.selectClipRegion env rgn)
        ∧ (ClipExact env (pdc.selectClipRegion env rgn) rgn.pixels ↔ KeepsClip env pdc (.selectRegion rgn)) := by
  unfold selectClipRegion KeepsClip
  rw [if_pos h.isGen]
  have hcopy := @copyOf_spec pdc.lcrgn rgn hrgn
  have hspec := generate_spec henv h hcopy.1 rgn.pixels
  refine ⟨hspec.1, ?_⟩
  rw [hspec.2, hcopy.2.1]
  dsimp only
  rw [rects_eq_nil_iff hrgn]
  by_cases hempty : rgn.pixels = ∅
  . have hnone : pdc.onScreen ∅ = ∅ := rfl
    simp [hempty, hnone, eq_comm]
  . simp [hempty]

theorem exec_exact (henv : EnvOk env) (h : GenOk env pdc) (hexact : ClipExact env pdc clip) {op : ClipOp}
    (hop : op.Valid) : SameWindow env pdc (pdc.exec env op)
        ∧ (ClipExact env (pdc.exec env op) (clipLocally clip op) ↔ KeepsClip env pdc op) := by
  cases op with
  | excludeRect rc => exact excludeClipRect_exact henv h hexact rc
  | includeRect rc => exact includeClipRect_exact henv h hexact rc
  | rectIntersect rc => exact clipRectIntersect_exact henv h hexact rc
  | selectRect prc => exact selectClipRect_exact henv h hexact prc
  | selectRegion rgn => exact selectClipRegion_exact henv h hop
  | generate fForce =>
    unfold Dc.exec KeepsClip clipLocally
    dsimp only
    rw [if_pos h.isGen, iff_true]
    unfold dcGenerateECRgn
    split
    . exact ⟨⟨h, rfl, rfl, rfl⟩, hexact⟩
    split
    . have hspec := generate_spec henv h h.lcrgn clip
      refine ⟨hspec.1, hspec.2.mpr ?_⟩
      rw [clipExact_iff henv h] at hexact
      rcases hexact with ⟨hclip, hall, hpart⟩
      exact ⟨fun hempty => hclip.symm.trans (hall hempty), fun hne => hclip.symm.trans (hpart hne)⟩
    . exact ⟨⟨h, rfl, rfl, rfl⟩, hexact⟩

theorem initDC_exact (henv : EnvOk env) (hWnd : Option ι) (bIsClient : Bool) (surface : GalSurface)
    : GenOk env (initDC env hWnd bIsClient surface) ∧ ClipExact env (initDC env hWnd bIsClient surface) univ := by
  generalize hinit : initDC env hWnd bIsClient surface = pdc
  unfold initDC at hinit
  extract_lets pdc0 ecrgn pdc1 at hinit
  have hcopy := @copyOf_spec pdc0.ecrgn _ henv.crgn
  have hcut := @intersectClipRect_spec _ (pdc1.minimal env) hcopy.1
  have hempty : emptyClipRgn.WellFormed := wellFormed_of_nil rfl
  have hok : GenOk env pdc := by
    rw [← hinit]
    exact ⟨rfl, rfl, hempty, hcut.1⟩
  refine ⟨hok, ?_⟩
  rw [clipExact_iff henv hok]
  have hlcrgn : pdc.lcrgn.pixels = ∅ := by
    rw [← hinit]
    exact pixels_eq_empty rfl
  have hecrgn : pdc.ecrgn.pixels = pdc.seen env := by
    rw [← hinit]
    rw [hcut.2, hcopy.2.1, minimal_pixels henv]
    rfl
  refine ⟨?_, fun _ => hecrgn, fun hne => absurd hlcrgn hne⟩
  rw [hecrgn]
  exact (univ_inter _).symm

end Step

theorem exec_run {ops : List ClipOp} (henv : EnvOk env) (h : GenOk env pdc) {clip : Set (Int × Int)}
    (hexact : ClipExact env pdc clip) (hops : ∀ op ∈ ops, op.Valid)
    (hkeeps : ∀ done op, done ++ [op] <+: ops → KeepsClip env (pdc.run env done) op)
    : GenOk env (pdc.run env ops) ∧ ClipExact env (pdc.run env ops) (ops.foldl clipLocally clip) := by
  induction ops using List.reverseRecOn with
  | nil => exact ⟨h, hexact⟩
  | append_singleton ops op ih =>
    have hbefore := ih (fun a ha => hops a (List.mem_append_left _ ha))
      (fun done a hdone => hkeeps done a (hdone.trans (List.prefix_append _ _)))
    have hstep := exec_exact henv hbefore.1 hbefore.2 (hops op (by simp))
    have hrun : pdc.run env (ops ++ [op]) = (pdc.run env ops).exec env op := by
      unfold Dc.run
      rw [List.foldl_concat]
    rw [hrun, List.foldl_concat]
    exact ⟨hstep.1.genOk, hstep.2.mpr (hkeeps ops op List.prefix_rfl)⟩

/--
The effective clip region is exact throughout a sequence of calls, and as it would be built again, just when each
call keeps the clip region what it describes.
-/
theorem dc_clipping (henv : EnvOk env) (hWnd : Option ι) (bIsClient : Bool) (surface : GalSurface) (ops : List ClipOp)
    (hops : ∀ op ∈ ops, op.Valid) : let pdc := initDC env hWnd bIsClient surface
      (∀ done, done <+: ops → ClipExact env (pdc.run env done) (done.foldl clipLocally Set.univ))
        ↔ ∀ done op, done ++ [op] <+: ops → KeepsClip env (pdc.run env done) op := by
  intro pdc
  have hinit := initDC_exact henv hWnd bIsClient surface
  constructor
  . intro hall done op hdone
    -- The calls before this one are on prefixes that are shorter.
    induction hn : done.length using Nat.strong_induction_on generalizing done op with
    | _ n ih =>
      have hvalid : ∀ a ∈ done ++ [op], a.Valid := fun a ha => hops a (hdone.subset ha)
      have hbefore := exec_run henv hinit.1 hinit.2 (fun a ha => hvalid a (List.mem_append_left _ ha))
        (fun done' op' hdone' => by
          have hlen := hdone'.length_le
          rw [List.length_append, List.length_singleton] at hlen
          exact ih done'.length (by omega) done' op'
            (hdone'.trans ((List.prefix_append _ _).trans hdone)) rfl)
      have hstep := exec_exact henv hbefore.1 hbefore.2 (hvalid op (by simp))
      apply hstep.2.mp
      have hafter := hall _ hdone
      unfold Dc.run at hafter
      rw [List.foldl_concat, List.foldl_concat] at hafter
      exact hafter
  . intro hkeeps done hdone
    have hrun := exec_run henv hinit.1 hinit.2 (fun a ha => hops a (hdone.subset ha))
      (fun done' op hdone' => hkeeps done' op (hdone'.trans hdone))
    exact hrun.2

def bareDesk : GdiEnv Unit :=
  { emptyDesk with gcrInfo := { crgn := single ⟨0, 0, 640, 480⟩, age := 0 } }

theorem envOk_bareDesk : EnvOk bareDesk := by
  refine ⟨⟨?_, ?_, ?_, ?_⟩, ?_⟩
  . intro h
    exact ⟨[], rfl, Nat.le_refl 0⟩
  . intro h l hctrl
    simp [bareDesk, emptyDesk] at hctrl
  . intro h p hp
    simp [WndTree.parent, bareDesk, emptyDesk] at hp
  . intro p c hc
    simp [bareDesk, emptyDesk] at hc
  . apply wellFormed_single
    unfold Rect.Proper
    decide

theorem seen_bareDesk {pdc : Dc Unit} (h : pdc.hwnd = none) : (0, 0) ∈ pdc.seen bareDesk := by
  unfold seen area withinAncestors updateDevRC
  rw [h]
  unfold WndTree.wndClientRect WndTree.wndRect
  simp only [ite_self, inter_univ]
  refine ⟨⟨⟨0, 0, 640, 480⟩, ?_, ?_⟩, ?_⟩
  . simp [bareDesk, single]
  . unfold Rect.Mem
    decide
  . rw [Rect.mem_pixels]
    unfold Rect.Mem bareDesk emptyDesk
    decide

theorem dc_clipping_kept : ClipExact bareDesk
        ((initDC bareDesk none false ⟨640, 480⟩).run bareDesk [ClipOp.rectIntersect ⟨0, 0, 10, 10⟩])
        ([ClipOp.rectIntersect ⟨0, 0, 10, 10⟩].foldl clipLocally Set.univ) := by
  have hall := dc_clipping envOk_bareDesk none false ⟨640, 480⟩ [ClipOp.rectIntersect ⟨0, 0, 10, 10⟩]
    (by simp [ClipOp.Valid])
  apply hall.mpr _ _ (List.prefix_refl _)
  intro done op hdone
  have hlen := hdone.length_le
  rw [List.length_append, List.length_singleton, List.length_singleton] at hlen
  have hnil : done = [] := List.eq_nil_of_length_eq_zero (by omega)
  rw [hnil, List.nil_append, List.cons_prefix_cons] at hdone
  rw [hnil, hdone.1]
  unfold KeepsClip
  dsimp only
  rw [if_neg (by decide), if_pos (by rfl)]
  constructor
  . intro hdisjoint
    exfalso
    rw [Set.disjoint_left] at hdisjoint
    apply @hdisjoint (0, 0)
    . rw [Rect.mem_pixels]
      unfold Rect.Mem wholeSquare
      decide
    . rw [Rect.mem_pixels]
      unfold Rect.Mem
      decide
  intro _ p hp
  have hmem := hp.2
  unfold onScreen at hmem ⊢
  rw [mem_shift, Rect.mem_pixels] at hmem ⊢
  have hn : normalizeRect ⟨0, 0, 10, 10⟩ = ⟨0, 0, 10, 10⟩ := by decide
  rw [hn] at hmem
  unfold Rect.Mem wholeSquare at *
  dsimp only at hmem ⊢
  omega

theorem dc_clipping_lost : EnvOk bareDesk
        ∧ ¬ClipExact bareDesk
          ((initDC bareDesk none false ⟨640, 480⟩).run bareDesk
            [.selectRect (some ⟨0, 0, 10, 10⟩), .rectIntersect ⟨20, 20, 30, 30⟩])
          ([ClipOp.selectRect (some ⟨0, 0, 10, 10⟩), .rectIntersect ⟨20, 20, 30, 30⟩].foldl clipLocally Set.univ) := by
  refine ⟨envOk_bareDesk, ?_⟩
  have hinit := initDC_exact envOk_bareDesk none false ⟨640, 480⟩
  have hselect := @exec_exact _ _ _ _ _ envOk_bareDesk hinit.1 hinit.2 (.selectRect (some ⟨0, 0, 10, 10⟩)) trivial
  have hfirst := hselect.2.mpr (by
    unfold KeepsClip
    intro hempty
    revert hempty
    decide)
  have hmeet := @exec_exact _ _ _ _ _ envOk_bareDesk hselect.1.genOk hfirst (.rectIntersect ⟨20, 20, 30, 30⟩) trivial
  intro hexact
  have hkeeps := hmeet.2.mp hexact
  unfold KeepsClip at hkeeps
  dsimp only at hkeeps
  rw [if_neg (by decide), if_neg (by decide)] at hkeeps
  have hnone := hkeeps (by
    rw [Set.disjoint_left]
    intro p hp hn
    rcases hp with ⟨r, hr, hmem⟩
    have hrect : r = ⟨0, 0, 10, 10⟩ := by
      revert hr
      exact List.mem_singleton.mp
    rw [hrect] at hmem
    have heq : normalizeRect ⟨20, 20, 30, 30⟩ = ⟨20, 20, 30, 30⟩ := by decide
    rw [heq, Rect.mem_pixels] at hn
    unfold Rect.Mem at hmem hn
    dsimp only at hmem hn
    omega)
  have hseen := @seen_bareDesk ((initDC bareDesk none false ⟨640, 480⟩).exec bareDesk
    (.selectRect (some ⟨0, 0, 10, 10⟩))) rfl
  rw [hnone] at hseen
  exact hseen

end MiniGui.Dc
