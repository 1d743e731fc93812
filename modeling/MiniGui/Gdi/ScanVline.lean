import MiniGui.Gdi.ScanExact

namespace MiniGui

open List

namespace ScanDc

variable {pdc : ScanDc} {curBan : Option Nat} {x y y1 a b : Int} {l m : List Rect} {r c : Rect}

def vsegments (pdc : ScanDc) (x b : Int) (y1 : Int) : List Rect → List (Int × Int)
  | [] => []
  | r :: l =>
    if y1 < r.bottom ∧ pdc.OnColumn x r then
      let s := pdc.vsegment y1 b r
      s :: if max s.1 s.2 < b then pdc.vsegments x b (max s.1 s.2) l else []
    else
      pdc.vsegments x b y1 l

theorem vsegments_skip (h : ∀ r ∈ l, ¬(y1 < r.bottom ∧ pdc.OnColumn x r))
    : pdc.vsegments x b y1 (l ++ m) = pdc.vsegments x b y1 m := by
  induction l with
  | nil => rfl
  | cons r l ih =>
    have hr := h r (by simp)
    rw [cons_append, vsegments, if_neg hr]
    apply ih
    intro c hc
    apply h
    simp [hc]

theorem vlineIn_eq (s : List (Int × Int) × Int) (r : Rect) : pdc.vlineIn x b s r
        =
      if pdc.OnColumn x r then
        (s.1 ++ (dots pdc.step (pdc.vsegment s.2 b r).1
            ((pdc.vsegment s.2 b r).2 - (pdc.vsegment s.2 b r).1)).map (fun p => (x, p)),
          max (pdc.vsegment s.2 b r).1 (pdc.vsegment s.2 b r).2)
      else
        s := by
  unfold vlineIn vsegment
  simp only [intersectRect_fst, intersectRect_snd, Bool.and_eq_true, doesIntersect_iff, decide_eq_true_eq]
  have hcol : pdc.OnColumn x r ↔ (max pdc.rcOutput.left r.left ≤ x ∧ x < min pdc.rcOutput.right r.right)
    ∧ max pdc.rcOutput.top r.top < min pdc.rcOutput.bottom r.bottom := Iff.rfl
  by_cases hon : pdc.OnColumn x r
  . have hon' := hcol.mp hon
    rw [if_pos hon, if_pos (by omega)]
    generalize htop : max pdc.rcOutput.top r.top = top
    generalize hbottom : min pdc.rcOutput.bottom r.bottom = bottom
    have hstart : (if s.2 < top then top else s.2) = max s.2 top := by omega
    have hlen : (if b ≥ bottom then bottom - max s.2 top else b - max s.2 top + 1) = min (b + 1) bottom - max s.2 top := by
      omega
    rw [hstart, hlen]
    congr 1
    omega
  . have hon' := mt hcol.mpr hon
    rw [if_neg hon, if_neg (by omega)]

theorem foldl_vlineIn_off (h : ∀ r ∈ l, ¬pdc.OnColumn x r) (s : List (Int × Int) × Int)
    : l.foldl (pdc.vlineIn x b) s = s := by
  induction l with
  | nil => rfl
  | cons r l ih =>
    rw [foldl_cons, vlineIn_eq, if_neg (h r (by simp))]
    apply ih
    intro c hc
    apply h
    simp [hc]

theorem OnColumn.above (hr : pdc.OnColumn x r) (hc : pdc.OnColumn x c) (h : Follows r c) : r.bottom ≤ c.top := by
  unfold OnColumn at hr hc
  unfold Follows at h
  omega

theorem vsegments_band (hb : Banded l) (htop : ∀ r ∈ l, ∀ c ∈ l, r.top = c.top) (hbottom : ∀ r ∈ l, y1 < r.bottom)
    (m : List Rect)
    : (l.foldl (pdc.vlineIn x b) ([], y1)).1 ++ (if (l.foldl (pdc.vlineIn x b) ([], y1)).2 < b then
          (written pdc.step (pdc.vsegments x b (l.foldl (pdc.vlineIn x b) ([], y1)).2 m)).map (fun p => (x, p)) else [])
        =
      if y1 < b ∨ ∃ r ∈ l, pdc.OnColumn x r then
        (written pdc.step (pdc.vsegments x b y1 (l ++ m))).map (fun p => (x, p))
      else
        [] := by
  by_cases hex : ∃ r ∈ l, pdc.OnColumn x r
  . rcases hex with ⟨r, hr, hon⟩
    rw [if_pos (Or.inr ⟨r, hr, hon⟩)]
    rcases append_of_mem hr with ⟨before, after, hsplit⟩
    have hoff : ∀ c ∈ before ++ after, ¬pdc.OnColumn x c := by
      intro c hc hcon
      have hcr : Follows c r ∨ Follows r c := by
        rw [hsplit] at hb
        have hbb := banded_append.mp hb
        rw [mem_append] at hc
        rcases hc with hc | hc
        . exact .inl (hbb.2.2 c hc r (by simp))
        . exact .inr ((banded_cons.mp hbb.2.1).2.1 c hc)
      have hcl : c ∈ l := by
        rw [hsplit]
        rw [mem_append] at hc
        rcases hc with hc | hc
        . simp [hc]
        . simp [hc]
      have hsame := htop c hcl r hr
      have hrpos := hb.1 r hr
      have hcpos := hb.1 c hcl
      rcases hcr with hf | hf
      . have habove := hcon.above hon hf
        omega
      . have habove := hon.above hcon hf
        omega
    have hbefore : ∀ c ∈ before, ¬pdc.OnColumn x c := by
      intro c hc
      apply hoff
      simp [hc]
    have hafter : ∀ c ∈ after, ¬pdc.OnColumn x c := by
      intro c hc
      apply hoff
      simp [hc]
    have hskip : ∀ (l' : List Rect) y', (∀ c ∈ l', ¬pdc.OnColumn x c) → ∀ c ∈ l', ¬(y' < c.bottom ∧ pdc.OnColumn x c) := by
      intro l' y' hl' c hc h
      exact hl' c hc h.2
    have hsegments : pdc.vsegments x b y1 (l ++ m)
        = pdc.vsegment y1 b r :: if max (pdc.vsegment y1 b r).1 (pdc.vsegment y1 b r).2 < b then
            pdc.vsegments x b (max (pdc.vsegment y1 b r).1 (pdc.vsegment y1 b r).2) m else [] := by
      rw [hsplit, append_assoc, vsegments_skip (hskip _ _ hbefore), cons_append, vsegments,
        if_pos ⟨hbottom r hr, hon⟩]
      simp only
      rw [vsegments_skip (hskip _ _ hafter)]
    have hfold : l.foldl (pdc.vlineIn x b) ([], y1)
        = ((dots pdc.step (pdc.vsegment y1 b r).1
            ((pdc.vsegment y1 b r).2 - (pdc.vsegment y1 b r).1)).map (fun p => (x, p)),
          max (pdc.vsegment y1 b r).1 (pdc.vsegment y1 b r).2) := by
      rw [hsplit, foldl_append, foldl_vlineIn_off hbefore, foldl_cons, vlineIn_eq, if_pos hon,
        foldl_vlineIn_off hafter]
      simp
    rw [hsegments, hfold]
    simp only
    by_cases hgo : max (pdc.vsegment y1 b r).1 (pdc.vsegment y1 b r).2 < b
    . rw [if_pos hgo, if_pos hgo]
      simp [written]
    . rw [if_neg hgo, if_neg hgo]
      simp [written]
  have hoff : ∀ c ∈ l, ¬pdc.OnColumn x c := by
    intro c hc hon
    exact hex ⟨c, hc, hon⟩
  rw [foldl_vlineIn_off hoff, nil_append, vsegments_skip (by
    intro c hc h
    exact hoff c hc h.2)]
  by_cases hgo : y1 < b
  . rw [if_pos hgo, if_pos (Or.inl hgo)]
  . rw [if_neg hgo, if_neg (by tauto)]

theorem vlineLoop_ban (hb : Banded l) (hy : y1 < b) {ban : List Rect} (hban : l.dropWhile (fun c => y1 ≥ c.bottom) = ban)
    (hne : ban ≠ []) : ((curBand ban).foldl (pdc.vlineIn x b) ([], y1)).1
        ++ (if ((curBand ban).foldl (pdc.vlineIn x b) ([], y1)).2 < b then
          (written pdc.step (pdc.vsegments x b ((curBand ban).foldl (pdc.vlineIn x b) ([], y1)).2 (bandEnd ban))).map
            (fun p => (x, p)) else [])
        =
      (written pdc.step (pdc.vsegments x b y1 l)).map (fun p => (x, p)) := by
  have hsplit := takeWhile_append_dropWhile (p := fun c : Rect => decide (y1 ≥ c.bottom)) (l := l)
  rw [hban] at hsplit
  have hskip : pdc.vsegments x b y1 l = pdc.vsegments x b y1 (curBand ban ++ bandEnd ban) := by
    rw [curBand_append_bandEnd, ← hsplit]
    apply vsegments_skip
    intro r hr h
    have himp := mem_takeWhile_imp hr
    simp only [decide_eq_true_eq] at himp
    omega
  have hbb : Banded ban := by
    rw [← hsplit] at hb
    exact (banded_append.mp hb).2.1
  cases ban with
  | nil => exact absurd rfl hne
  | cons c m =>
    have hc : y1 < c.bottom := by
      have hnot := head?_dropWhile_not (fun c : Rect => decide (y1 ≥ c.bottom)) l
      rw [hban] at hnot
      simpa using hnot
    rw [hskip, vsegments_band (banded_curBand hbb) _ _ (bandEnd (c :: m)), if_pos (.inl hy)]
    . intro r hr d hd
      rw [mem_curBand_top hr, mem_curBand_top hd]
    . intro r hr
      rw [hbb.bottom_of_curBand hr]
      exact hc

theorem vlineLoop_eq (hb : Banded l) (hy : y1 < b)
    : pdc.vlineLoop x b l y1 = (written pdc.step (pdc.vsegments x b y1 l)).map (fun p => (x, p)) := by
  fun_induction vlineLoop pdc x b l y1 with
  | case1 l y1 ban hban =>
    have hskip := @vsegments_skip pdc x y1 b l [] (by
      intro r hr h
      rw [dropWhile_eq_nil_iff] at hban
      have hle := hban r hr
      simp only [decide_eq_true_eq] at hle
      omega)
    rw [append_nil] at hskip
    rw [hskip]
    rfl
  | case2 l y1 ban hban s hgo ih =>
    have hend : Banded (bandEnd ban) := by
      apply banded_bandEnd
      rw [← takeWhile_append_dropWhile (p := fun c : Rect => decide (y1 ≥ c.bottom)) (l := l)] at hb
      exact (banded_append.mp hb).2.1
    rw [← vlineLoop_ban hb hy rfl hban, ih hend hgo.2, if_pos hgo.2]
  | case3 l y1 ban hban s hgo =>
    rw [← vlineLoop_ban hb hy rfl hban]
    split
    . next hlt =>
      have hnil : bandEnd ban = [] := by
        by_contra hne
        exact hgo ⟨hne, hlt⟩
      change s.1 = s.1 ++ _
      rw [hnil]
      simp [vsegments, written]
    . symm
      apply append_nil

theorem mem_vsegments (hb : Banded l) (hy : y1 < b) (hab : a ≤ y1)
    (hstart : ∀ r ∈ l, pdc.OnColumn x r → y1 = a ∨ y1 ≤ r.top) (s : Int × Int)
    : s ∈ pdc.vsegments x b y1 l
        ↔
      ∃ r ∈ l, (pdc.OnColumn x r ∧ y1 < r.bottom
        ∧ ∀ c ∈ l, pdc.OnColumn x c → y1 < c.bottom → c.bottom ≤ r.top → min pdc.rcOutput.bottom c.bottom < b)
          ∧ s = pdc.vsegment a b r := by
  induction l generalizing y1 with
  | nil => simp [vsegments]
  | cons e m ih =>
    rw [banded_cons] at hb
    have hbelow : ∀ r ∈ m, pdc.OnColumn x e → pdc.OnColumn x r → e.bottom ≤ r.top := by
      intro r hr he hon
      exact he.above hon (hb.2.1 r hr)
    have hedown : ∀ r ∈ m, e.top < r.bottom := by
      intro r hr
      have hpos := hb.2.2.1 r hr
      have hf := hb.2.1 r hr
      unfold Follows at hf
      omega
    unfold vsegments
    by_cases htake : y1 < e.bottom ∧ pdc.OnColumn x e
    . rw [if_pos htake]
      have hseg : pdc.vsegment y1 b e = pdc.vsegment a b e := by
        unfold vsegment
        rcases hstart e (by simp) htake.2 with h | h
        . rw [h]
        . have h1 : max y1 (max pdc.rcOutput.top e.top) = max a (max pdc.rcOutput.top e.top) := by omega
          rw [h1]
      have hnext : max (pdc.vsegment y1 b e).1 (pdc.vsegment y1 b e).2 < b
          ↔ min pdc.rcOutput.bottom e.bottom < b := by
        have hon := htake.2.2
        unfold vsegment
        simp only
        omega
      have hnextle : max (pdc.vsegment y1 b e).1 (pdc.vsegment y1 b e).2 ≤ e.bottom
          ∧ y1 ≤ max (pdc.vsegment y1 b e).1 (pdc.vsegment y1 b e).2 := by
        have hon := htake.2.2
        unfold vsegment
        simp only
        omega
      simp only
      rw [mem_cons, hseg]
      rw [hseg] at hnext hnextle
      generalize hnew : max (pdc.vsegment a b e).1 (pdc.vsegment a b e).2 = new at hnext hnextle
      have htail : s ∈ (if new < b then pdc.vsegments x b new m else [])
          ↔ ∃ r ∈ m, (pdc.OnColumn x r ∧ y1 < r.bottom
            ∧ ∀ c ∈ e :: m, pdc.OnColumn x c → y1 < c.bottom → c.bottom ≤ r.top → min pdc.rcOutput.bottom c.bottom < b)
              ∧ s = pdc.vsegment a b r := by
        by_cases hgo : new < b
        . rw [if_pos hgo, ih hb.2.2 hgo (by omega)]
          . constructor
            . rintro ⟨r, hr, ⟨hon, hlt, hall⟩, hs⟩
              refine ⟨r, hr, ⟨hon, by omega, ?_⟩, hs⟩
              intro c hc hcon hcy hle
              rcases mem_cons.mp hc with hce | hcm
              . rw [hce]
                exact hnext.mp hgo
              . have hbelowc := hbelow c hcm htake.2 hcon
                have hcpos := hb.2.2.1 c hcm
                exact hall c hcm hcon (by omega) hle
            rintro ⟨r, hr, ⟨hon, hlt, hall⟩, hs⟩
            have hbelowr := hbelow r hr htake.2 hon
            have hrpos := hb.2.2.1 r hr
            refine ⟨r, hr, ⟨hon, by omega, ?_⟩, hs⟩
            intro c hc hcon hcy hle
            exact hall c (by simp [hc]) hcon (by omega) hle
          . intro r hr hon
            have hle := hbelow r hr htake.2 hon
            omega
        rw [if_neg hgo]
        simp only [not_mem_nil, false_iff]
        rintro ⟨r, hr, ⟨hon, _, hall⟩, _⟩
        have hle := hbelow r hr htake.2 hon
        have hlt := hall e (by simp) htake.2 htake.1 hle
        omega
      rw [htail]
      constructor
      . rintro (hs | ⟨r, hr, hdrawn, hs⟩)
        . refine ⟨e, by simp, ⟨htake.2, htake.1, ?_⟩, hs⟩
          intro c hc hcon hcy hle
          rcases mem_cons.mp hc with hce | hcm
          . rw [hce] at hle
            omega
          . have hdown := hedown c hcm
            omega
        . exact ⟨r, by simp [hr], hdrawn, hs⟩
      rintro ⟨r, hr, hdrawn, hs⟩
      rcases mem_cons.mp hr with hre | hrm
      . rw [hre] at hs
        exact .inl hs
      . exact .inr ⟨r, hrm, hdrawn, hs⟩
    rw [if_neg htake, ih hb.2.2 hy hab (by
      intro r hr hon
      exact hstart r (by simp [hr]) hon)]
    constructor
    . rintro ⟨r, hr, ⟨hon, hlt, hall⟩, hs⟩
      refine ⟨r, by simp [hr], ⟨hon, hlt, ?_⟩, hs⟩
      intro c hc hcon hcy hle
      rcases mem_cons.mp hc with hce | hcm
      . rw [hce] at hcon hcy
        exact absurd ⟨hcy, hcon⟩ htake
      . exact hall c hcm hcon hcy hle
    rintro ⟨r, hr, ⟨hon, hlt, hall⟩, hs⟩
    rcases mem_cons.mp hr with hre | hrm
    . rw [hre] at hon hlt
      exact absurd ⟨hlt, hon⟩ htake
    . refine ⟨r, hrm, ⟨hon, hlt, ?_⟩, hs⟩
      intro c hc
      exact hall c (by simp [hc])

theorem vsegments_sorted (hb : Banded l) (hy : y1 < b)
    : (pdc.vsegments x b y1 l).Pairwise (fun s t => s.1 < s.2 ∧ s.2 ≤ t.1) := by
  induction l generalizing y1 with
  | nil => simp [vsegments]
  | cons e m ih =>
    rw [banded_cons] at hb
    unfold vsegments
    by_cases htake : y1 < e.bottom ∧ pdc.OnColumn x e
    . rw [if_pos htake]
      simp only
      by_cases hgo : max (pdc.vsegment y1 b e).1 (pdc.vsegment y1 b e).2 < b
      . rw [if_pos hgo, pairwise_cons]
        refine ⟨?_, ih hb.2.2 hgo⟩
        intro t ht
        have hstart : ∀ r ∈ m, pdc.OnColumn x r
            → max (pdc.vsegment y1 b e).1 (pdc.vsegment y1 b e).2 = max (pdc.vsegment y1 b e).1 (pdc.vsegment y1 b e).2
              ∨ max (pdc.vsegment y1 b e).1 (pdc.vsegment y1 b e).2 ≤ r.top := by
          intro r hr hon
          exact .inl rfl
        rw [mem_vsegments hb.2.2 hgo (Int.le_refl _) hstart] at ht
        rcases ht with ⟨r, hr, ⟨hon, _, _⟩, ht⟩
        have hbelow := htake.2.above hon (hb.2.1 r hr)
        have heon := htake.2.2
        have hron := hon.2
        rw [ht]
        unfold vsegment at hgo ⊢
        simp only at hgo ⊢
        omega
      . rw [if_neg hgo]
        simp
    . rw [if_neg htake]
      exact ih hb.2.2 hy

def Missed (pdc : ScanDc) (x a b t : Int) : Prop :=
  t = b ∧ pdc.rcOutput.Mem x b ∧ ∃ r ∈ pdc.ecrgn.rects, r.Mem x b ∧ ¬pdc.Drawn x a b pdc.ecrgn.rects r

theorem visible_on_column (hb : Banded pdc.ecrgn.rects) (hab : a < b) (t : Int)
    : (a ≤ t ∧ t ≤ b) ∧ pdc.Visible (x, t)
        ↔
      (∃ s ∈ pdc.vsegments x b a pdc.ecrgn.rects, s.1 ≤ t ∧ t < s.2) ∨ pdc.Missed x a b t := by
  have hmem := @mem_vsegments pdc x a a b _ hb hab (Int.le_refl a) (fun r _ _ => Or.inl rfl)
  unfold Visible Covers Missed
  constructor
  . rintro ⟨hline, ⟨r, hr, hrmem⟩, hout⟩
    by_cases hdrawn : pdc.Drawn x a b pdc.ecrgn.rects r
    . refine .inl ⟨pdc.vsegment a b r, (hmem _).mpr ⟨r, hr, hdrawn, rfl⟩, ?_⟩
      simp only [Rect.Mem] at hrmem hout
      unfold vsegment
      simp only
      omega
    apply Or.inr
    have hdrawn' := hdrawn
    unfold Drawn at hdrawn'
    simp only [Rect.Mem] at hrmem hout
    have hon : pdc.OnColumn x r := by
      unfold OnColumn
      omega
    push Not at hdrawn'
    rcases hdrawn' hon (by omega) with ⟨c, hc, hcon, hac, hcr, hcb⟩
    have ht : t = b := by omega
    rw [ht] at hrmem hout
    exact ⟨ht, hout, r, hr, hrmem, hdrawn⟩
  rintro (⟨s, hs, hst⟩ | ⟨ht, hout, r, hr, hrmem, _⟩)
  . rw [hmem] at hs
    rcases hs with ⟨r, hr, ⟨hon, _, _⟩, hs⟩
    have hon' := hon
    unfold OnColumn at hon'
    rw [hs] at hst
    unfold vsegment at hst
    simp only at hst
    refine ⟨by omega, ⟨r, hr, ?_⟩, ?_⟩
    . simp only [Rect.Mem]
      omega
    . simp only [Rect.Mem]
      omega
  . rw [ht]
    exact ⟨by omega, ⟨r, hr, hrmem⟩, hout⟩

theorem Missed.behind (hb : Banded pdc.ecrgn.rects) (hab : a < b) {t : Int} (h : pdc.Missed x a b t)
    : ∀ s ∈ pdc.vsegments x b a pdc.ecrgn.rects, s.1 < s.2 ∧ s.2 ≤ t := by
  have hmem := @mem_vsegments pdc x a a b _ hb hab (Int.le_refl a) (fun r _ _ => .inl rfl)
  rcases h with ⟨ht, hout, r, hr, hrmem, hdrawn⟩
  unfold Drawn at hdrawn
  push Not at hdrawn
  simp only [Rect.Mem] at hout hrmem
  have hon : pdc.OnColumn x r := by
    unfold OnColumn
    omega
  rcases hdrawn hon (by omega) with ⟨c, hc, hcon, hac, hcr, hcb⟩
  intro s hs
  rw [hmem] at hs
  rcases hs with ⟨d, hd, ⟨hdon, had, hall⟩, hs⟩
  have hdb : d.bottom ≤ b := by
    rcases hb.follows_or hd hc with h | h | h
    . rw [h]
      omega
    . have habove := hdon.above hcon h
      have hcpos := hb.1 c hc
      omega
    . have habove := hcon.above hdon h
      have hlt := hall c hc hcon hac habove
      omega
  have hdon' := hdon.2
  rw [hs]
  unfold vsegment
  simp only
  omega

def VlineOk (pdc : ScanDc) (y1 y2 x : Int) : Prop :=
  y1 = y2 ∨ (∀ r ∈ pdc.ecrgn.rects, max y1 y2 < r.top)
    ∨ (∀ r ∈ pdc.ecrgn.rects, pdc.Drawn x (min y1 y2) (max y1 y2) pdc.ecrgn.rects r →
        SegOk pdc.step (pdc.vsegment (min y1 y2) (max y1 y2) r).1 (pdc.vsegment (min y1 y2) (max y1 y2) r).2)
      ∧ (pdc.Missed x (min y1 y2) (max y1 y2) (max y1 y2) → max y1 y2 % pdc.step ≠ 0)

instance (pdc : ScanDc) (x a b t : Int) : Decidable (pdc.Missed x a b t) :=
  inferInstanceAs (Decidable (_ ∧ _))

instance (pdc : ScanDc) (y1 y2 x : Int) : Decidable (pdc.VlineOk y1 y2 x) :=
  inferInstanceAs (Decidable (_ ∨ _))

theorem drawVlineClip_exact (hstep : pdc.step = 1 ∨ pdc.step = 2) (hb : Banded pdc.ecrgn.rects)
    (hne : pdc.ecrgn.rects ≠ []) (hcur : BanOk pdc.ecrgn curBan) (y1 y2 x : Int)
    : pdc.Exact curBan (.drawVline y1 y2 x) ↔ pdc.VlineOk y1 y2 x := by
  unfold Exact VlineOk
  simp only [exec, drawVlineClip, Scan.Shape]
  by_cases hpoint : y1 = y2
  . simp only [hpoint, if_true, true_or, iff_true, min_self, max_self]
    have hshape : ∀ p : Int × Int, (p.1 = x ∧ (y2 ≤ p.2 ∧ p.2 ≤ y2) ∧ p.2 % pdc.step = 0)
        ↔ p = (x, y2) ∧ y2 % pdc.step = 0 := by
      rintro ⟨col, t⟩
      simp only [Prod.mk.injEq]
      grind
    simp only [hshape]
    exact stepped_pixel hb hne hcur y2
  simp only [hpoint, if_false, false_or]
  have hmin : (if y1 > y2 then y2 else y1) = min y1 y2 := by omega
  have hmax : (if y1 > y2 then y1 else y2) = max y1 y2 := by omega
  rw [hmin, hmax]
  have hab : min y1 y2 < max y1 y2 := by omega
  generalize min y1 y2 = a at hab
  generalize max y1 y2 = b at hab
  have hempty : (∀ t, ¬((a ≤ t ∧ t ≤ b) ∧ pdc.Visible (x, t))) → (([] : List (Int × Int)).Nodup ∧ ∀ p,
      p ∈ ([] : List (Int × Int)) ↔ (p.1 = x ∧ (a ≤ p.2 ∧ p.2 ≤ b) ∧ p.2 % pdc.step = 0) ∧ pdc.Visible p) := by
    intro hnone
    refine ⟨by simp, ?_⟩
    rintro ⟨col, t⟩
    simp only [not_mem_nil, false_iff]
    rintro ⟨⟨hcol, ht, _⟩, hvis⟩
    rw [hcol] at hvis
    exact hnone t ⟨ht, hvis⟩
  cases hhead : pdc.ecrgn.rects.head? with
  | none => simp_all
  | some head =>
    cases hlast : pdc.ecrgn.rects.getLast? with
    | none => simp_all
    | some tail =>
      simp only
      by_cases habove : b < head.top
      . have hcond : (decide (a ≥ tail.bottom) || decide (b < head.top)) = true := by
          simp [habove]
        rw [if_pos hcond]
        have hall : ∀ r ∈ pdc.ecrgn.rects, b < r.top := by
          intro r hr
          have hle := head_top_le hb hhead hr
          omega
        rw [iff_true_right (.inl hall)]
        apply hempty
        rintro t ⟨ht, ⟨r, hr, hrmem⟩, _⟩
        have hlt := hall r hr
        simp only [Rect.Mem] at hrmem
        omega
      have hnotabove : ¬∀ r ∈ pdc.ecrgn.rects, b < r.top := by
        intro hall
        have hlt := hall head (mem_of_head? hhead)
        omega
      simp only [hnotabove, false_or]
      by_cases hbelow : a ≥ tail.bottom
      . have hcond : (decide (a ≥ tail.bottom) || decide (b < head.top)) = true := by
          simp [hbelow]
        rw [if_pos hcond]
        have hall : ∀ r ∈ pdc.ecrgn.rects, r.bottom ≤ a := by
          intro r hr
          have hle := hb.bottom_le_getLast hlast hr
          omega
        rw [iff_true_right]
        . apply hempty
          rintro t ⟨ht, ⟨r, hr, hrmem⟩, _⟩
          have hle := hall r hr
          simp only [Rect.Mem] at hrmem
          omega
        constructor
        . rintro r hr ⟨_, hlt, _⟩
          have hle := hall r hr
          omega
        rintro ⟨_, _, r, hr, hrmem, _⟩
        have hle := hall r hr
        simp only [Rect.Mem] at hrmem
        omega
      have hcond : ¬(decide (a ≥ tail.bottom) || decide (b < head.top)) = true := by
        simp only [Bool.or_eq_true, decide_eq_true_eq]
        omega
      rw [if_neg hcond, vlineLoop_eq hb hab]
      have hinj : Function.Injective (fun t : Int => (x, t)) := by
        intro s t hst
        simpa using hst
      rw [exact_map hinj]
      . have hexact := written_exact hstep (@vsegments_sorted pdc x a b _ hb hab) (pdc.Missed x a b)
          (fun t ht => ht.behind hb hab)
        have hshape : ∀ t, ((True ∧ (a ≤ t ∧ t ≤ b) ∧ t % pdc.step = 0) ∧ pdc.Visible (x, t))
            ↔ ((a ≤ t ∧ t ≤ b) ∧ pdc.Visible (x, t)) ∧ t % pdc.step = 0 := by
          intro t
          tauto
        simp only [hshape, visible_on_column hb hab]
        rw [hexact]
        have hmem := @mem_vsegments pdc x a a b _ hb hab (Int.le_refl a)
          (fun r _ _ => .inl rfl)
        apply and_congr
        . constructor
          . intro hok r hr hdrawn
            exact hok _ ((hmem _).mpr ⟨r, hr, hdrawn, rfl⟩)
          intro hok s hs
          rcases (hmem s).mp hs with ⟨r, hr, hdrawn, hs'⟩
          rw [hs']
          exact hok r hr hdrawn
        constructor
        . intro hmissed h
          exact hmissed b h
        intro hmissed t h
        have ht := h.1
        rw [ht] at h ⊢
        exact hmissed h
      . rintro p ⟨⟨hx, _⟩, _⟩
        refine ⟨p.2, ?_⟩
        rw [← hx]

end ScanDc

section Ban

variable {pdc : ScanDc} {curBan : Option Nat}

theorem banOk_dcWhichRegionBan {region : ClipRgn} {y : Int} (hb : Banded region.rects) (hne : region.rects ≠ [])
    (hcur : BanOk region curBan) : BanOk region (dcWhichRegionBan region curBan y) := by
  intro k hk
  have hspec := dcWhichRegionBan_spec (y := y) hb hne hcur
  rw [hk] at hspec
  exact hspec.1

theorem ScanDc.setPixelClip_ban (x y : Int)
    : (pdc.setPixelClip curBan x y).2 = dcWhichRegionBan pdc.ecrgn curBan y := by
  unfold setPixelClip
  simp only
  split
  . next h => rw [h]
  rename_i h
  split
  . rw [h]
  . rw [h]

theorem ScanDc.setPixelPairClip_ban (x1 x2 y : Int)
    : (pdc.setPixelPairClip curBan x1 x2 y).2 = dcWhichRegionBan pdc.ecrgn curBan y := by
  unfold setPixelPairClip
  simp only
  generalize (if x1 > x2 then x2 else x1) = a
  generalize (if x1 > x2 then x1 else x2) = b
  split
  . next h => rw [h]
  rename_i k h
  rw [h]
  by_cases hab : a ≠ b
  . rw [if_pos hab]
    split <;> rfl
  . rw [if_neg hab]

theorem ScanDc.exec_ban (scan : Scan)
    : (pdc.exec curBan scan).2 = curBan ∨ ∃ y, (pdc.exec curBan scan).2 = dcWhichRegionBan pdc.ecrgn curBan y := by
  cases scan with
  | setPixel x y => exact .inr ⟨y, pdc.setPixelClip_ban x y⟩
  | setPixelPair x1 x2 y => exact .inr ⟨y, pdc.setPixelPairClip_ban x1 x2 y⟩
  | drawHline x1 x2 y =>
    simp only [exec, drawHlineClip]
    split
    . exact .inl rfl
    split
    . split
      . exact .inr ⟨y, pdc.setPixelClip_ban x1 y⟩
      . exact .inl rfl
    . split
      . exact .inr ⟨y, rfl⟩
      . exact .inr ⟨y, rfl⟩
  | drawVline y1 y2 x =>
    simp only [exec, drawVlineClip]
    split
    . split
      . exact .inr ⟨y1, pdc.setPixelClip_ban x y1⟩
      . exact .inl rfl
    apply Or.inl
    generalize (if y1 > y2 then y2 else y1) = a
    generalize (if y1 > y2 then y1 else y2) = b
    split
    . split <;> rfl
    . rfl

theorem ScanDc.banOk_banAfter (hb : Banded pdc.ecrgn.rects) (hne : pdc.ecrgn.rects ≠ []) (scans : List Scan)
    : BanOk pdc.ecrgn (pdc.banAfter scans) := by
  unfold banAfter
  generalize hstart : (none : Option Nat) = start
  have hok : BanOk pdc.ecrgn start := by
    rw [← hstart]
    exact banOk_none
  clear hstart
  induction scans generalizing start with
  | nil => exact hok
  | cons scan scans ih =>
    rw [foldl_cons]
    apply ih
    rcases @exec_ban pdc start scan with h | ⟨y, h⟩
    . rw [h]
      exact hok
    . rw [h]
      exact banOk_dcWhichRegionBan hb hne hok

end Ban

def Scan.Ok (pdc : ScanDc) : Scan → Prop
  | .setPixel _ _ => True
  | .setPixelPair _ _ _ => True
  | .drawHline x1 x2 y => pdc.HlineOk x1 x2 y
  | .drawVline y1 y2 x => pdc.VlineOk y1 y2 x

/--
The clipped primitives are exact, whatever the earlier ones left in `cur_ban`, but for horizontal lines of which
something is visible outside of the rows of the screen, vertical lines whose last pixel is visible below a rectangle
that ends there, and dot lines with a segment that starts at a gap.
-/
theorem scan_exact (pdc : ScanDc) (hstep : pdc.step = 1 ∨ pdc.step = 2) (hwf : pdc.ecrgn.WellFormed)
    (hne : pdc.ecrgn.rects ≠ []) (scans : List Scan) (scan : Scan)
    : pdc.Exact (pdc.banAfter scans) scan ↔ scan.Ok pdc := by
  have hb := hwf.banded
  have hcur := pdc.banOk_banAfter hb hne scans
  cases scan with
  | setPixel x y => exact iff_of_true (ScanDc.setPixelClip_exact hb hne hcur) trivial
  | setPixelPair x1 x2 y => exact iff_of_true (ScanDc.setPixelPairClip_exact hb hne hcur) trivial
  | drawHline x1 x2 y => exact ScanDc.drawHlineClip_exact hstep hb hne hcur x1 x2 y
  | drawVline y1 y2 x => exact ScanDc.drawVlineClip_exact hstep hb hne hcur y1 y2 x

def twoBans : ScanDc where
  ecrgn :=
    {
      type := .complexRegion
      rcBound := ⟨0, 0, 20, 20⟩
      rects := [⟨0, 0, 10, 10⟩, ⟨0, 10, 20, 20⟩]
    }
  rcOutput := ⟨0, 0, 100, 100⟩
  step := 1
  scrBottom := 100

theorem wellFormed_twoBans : twoBans.ecrgn.WellFormed where
  banded := by
    simp [twoBans, Banded, Follows]
  bound :=
    {
      contains := by simp [twoBans]
      attained := by simp [twoBans]
    }

theorem scan_exact_inside_ban : twoBans.Exact (twoBans.banAfter []) (.drawVline 2 8 3) := by
  apply (scan_exact twoBans (by decide) wellFormed_twoBans (by decide) [] (.drawVline 2 8 3)).mpr
  change twoBans.VlineOk 2 8 3
  decide

theorem scan_exact_ban_edge : twoBans.step = 1 ∧ twoBans.ecrgn.WellFormed ∧ twoBans.ecrgn.rects ≠ []
        ∧ ¬twoBans.Exact (twoBans.banAfter []) (.drawVline 0 10 3) := by
  refine ⟨rfl, wellFormed_twoBans, by decide, ?_⟩
  have hcur := twoBans.banOk_banAfter wellFormed_twoBans.banded (by decide) []
  rw [ScanDc.drawVlineClip_exact (by decide) wellFormed_twoBans.banded (by decide) hcur]
  decide

end MiniGui
