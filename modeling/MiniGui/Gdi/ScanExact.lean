import MiniGui.Gdi.ScanBan
import MiniGui.Gdi.ScanDots

namespace MiniGui

open Function List

variable {pdc : ScanDc} {curBan : Option Nat} {x y a b : Int} {l : List Rect} {r : Rect}

theorem Banded.follows_or {c : Rect} (hb : Banded l) (hr : r ∈ l) (hc : c ∈ l) : r = c ∨ Follows r c ∨ Follows c r := by
  induction l with
  | nil => simp at hr
  | cons e m ih =>
    rw [banded_cons] at hb
    rcases mem_cons.mp hr with hre | hrm
    . rcases mem_cons.mp hc with hce | hcm
      . rw [hre, hce]
        exact .inl rfl
      . rw [hre]
        exact .inr (.inl (hb.2.1 c hcm))
    rcases mem_cons.mp hc with hce | hcm
    . rw [hce]
      exact .inr (.inr (hb.2.1 r hrm))
    . exact ih hb.2.2 hrm hcm

theorem Banded.eq_of_mem {c : Rect} (hb : Banded l) (hr : r ∈ l) (hc : c ∈ l) (hrmem : r.Mem x y) (hcmem : c.Mem x y)
    : r = c := by
  simp only [Rect.Mem] at hrmem hcmem
  rcases hb.follows_or hr hc with h | h | h
  . exact h
  . unfold Follows at h
    omega
  . unfold Follows at h
    omega

def Scan.Shape (step : Int) (p : Int × Int) : Scan → Prop
  | .setPixel x y => p = (x, y)
  | .setPixelPair x1 x2 y => p = (x1, y) ∨ p = (x2, y)
  | .drawHline x1 x2 y => p.2 = y ∧ (min x1 x2 ≤ p.1 ∧ p.1 ≤ max x1 x2) ∧ p.1 % step = 0
  | .drawVline y1 y2 x => p.1 = x ∧ (min y1 y2 ≤ p.2 ∧ p.2 ≤ max y1 y2) ∧ p.2 % step = 0

namespace ScanDc

def Visible (pdc : ScanDc) (p : Int × Int) : Prop :=
  Covers pdc.ecrgn.rects p.1 p.2 ∧ pdc.rcOutput.Mem p.1 p.2

def Exact (pdc : ScanDc) (curBan : Option Nat) (scan : Scan) : Prop :=
  (pdc.exec curBan scan).1.Nodup
    ∧ ∀ p, p ∈ (pdc.exec curBan scan).1 ↔ scan.Shape pdc.step p ∧ pdc.Visible p

def hsegment (pdc : ScanDc) (a b : Int) (r : Rect) : Int × Int :=
  (max a (max pdc.rcOutput.left r.left), min (b + 1) (min pdc.rcOutput.right r.right))

def OnRow (pdc : ScanDc) (a b y : Int) (r : Rect) : Prop :=
  (r.top ≤ y ∧ y < r.bottom) ∧ (pdc.rcOutput.top ≤ y ∧ y < pdc.rcOutput.bottom)
    ∧ (pdc.hsegment a b r).1 < (pdc.hsegment a b r).2

def vsegment (pdc : ScanDc) (a b : Int) (r : Rect) : Int × Int :=
  (max a (max pdc.rcOutput.top r.top), min (b + 1) (min pdc.rcOutput.bottom r.bottom))

def OnColumn (pdc : ScanDc) (x : Int) (r : Rect) : Prop :=
  (max pdc.rcOutput.left r.left ≤ x ∧ x < min pdc.rcOutput.right r.right)
    ∧ max pdc.rcOutput.top r.top < min pdc.rcOutput.bottom r.bottom

def Drawn (pdc : ScanDc) (x a b : Int) (l : List Rect) (r : Rect) : Prop :=
  pdc.OnColumn x r ∧ a < r.bottom
    ∧ ∀ c ∈ l, pdc.OnColumn x c → a < c.bottom → c.bottom ≤ r.top → min pdc.rcOutput.bottom c.bottom < b

instance (pdc : ScanDc) (a b y : Int) (r : Rect) : Decidable (pdc.OnRow a b y r) :=
  inferInstanceAs (Decidable (_ ∧ _))

instance (pdc : ScanDc) (x : Int) (r : Rect) : Decidable (pdc.OnColumn x r) :=
  inferInstanceAs (Decidable (_ ∧ _))

instance (pdc : ScanDc) (x a b : Int) (l : List Rect) (r : Rect) : Decidable (pdc.Drawn x a b l r) :=
  inferInstanceAs (Decidable (_ ∧ _))

theorem inRect_iff (r : Rect) (x y : Int) : inRect r x y = true ↔ r.Mem x y := by
  simp only [inRect, Bool.and_eq_true, decide_eq_true_eq, Rect.Mem]
  omega

theorem visible_iff (hb : Banded pdc.ecrgn.rects) (hne : pdc.ecrgn.rects ≠ []) (hcur : BanOk pdc.ecrgn curBan)
    : pdc.Visible (x, y)
        ↔
      ∃ k, dcWhichRegionBan pdc.ecrgn curBan y = some k
        ∧ ∃ c ∈ banAt pdc.ecrgn k, (inRect pdc.rcOutput x y && inRect c x y) = true := by
  have hspec := dcWhichRegionBan_spec (y := y) hb hne hcur
  unfold Visible
  cases hban : dcWhichRegionBan pdc.ecrgn curBan y with
  | none =>
    rw [hban] at hspec
    have hnot := hspec x
    simp [hnot]
  | some k =>
    rw [hban] at hspec
    have hiff := hspec.2 x
    simp only at hiff ⊢
    rw [hiff]
    simp only [Option.some.injEq, exists_eq_left', Bool.and_eq_true, inRect_iff, Covers]
    tauto

theorem find_visible (hb : Banded pdc.ecrgn.rects) (hne : pdc.ecrgn.rects ≠ []) (hcur : BanOk pdc.ecrgn curBan)
    {k : Nat} (hban : dcWhichRegionBan pdc.ecrgn curBan y = some k)
    : pdc.Visible (x, y) ↔ ∃ c ∈ banAt pdc.ecrgn k, (inRect pdc.rcOutput x y && inRect c x y) = true := by
  rw [visible_iff hb hne hcur, hban]
  simp

theorem exact_pixel {visible : Int × Int → Prop} (p : Int × Int) {out : List (Int × Int)}
    (h : out = [p] ∧ visible p ∨ out = [] ∧ ¬visible p)
    : out.Nodup ∧ ∀ q, q ∈ out ↔ q = p ∧ visible q := by
  rcases h with ⟨hout, hvis⟩ | ⟨hout, hvis⟩
  . rw [hout]
    refine ⟨by simp, ?_⟩
    intro q
    rw [mem_singleton]
    constructor
    . intro hq
      rw [hq]
      exact ⟨rfl, hvis⟩
    . intro hq
      exact hq.1
  rw [hout]
  refine ⟨by simp, ?_⟩
  intro q
  simp only [not_mem_nil, false_iff]
  rintro ⟨hq, hqvis⟩
  rw [hq] at hqvis
  exact hvis hqvis

theorem setPixelClip_exact (hb : Banded pdc.ecrgn.rects) (hne : pdc.ecrgn.rects ≠ []) (hcur : BanOk pdc.ecrgn curBan)
    : (pdc.setPixelClip curBan x y).1.Nodup
        ∧ ∀ p, p ∈ (pdc.setPixelClip curBan x y).1 ↔ p = (x, y) ∧ pdc.Visible p := by
  apply exact_pixel
  unfold setPixelClip
  cases hban : dcWhichRegionBan pdc.ecrgn curBan y with
  | none =>
    have hnot := visible_iff (x := x) (y := y) hb hne hcur
    simp [hban] at hnot
    simp [hnot]
  | some k =>
    rw [find_visible hb hne hcur hban]
    cases hfind : (banAt pdc.ecrgn k).find? (fun c => inRect pdc.rcOutput x y && inRect c x y) with
    | none =>
      apply Or.inr
      simp only [hfind]
      refine ⟨trivial, ?_⟩
      rintro ⟨c, hc, hin⟩
      exact find?_eq_none.mp hfind c hc hin
    | some c =>
      apply Or.inl
      simp only [hfind]
      refine ⟨trivial, c, mem_of_find?_eq_some hfind, ?_⟩
      simpa using find?_some hfind

theorem banded_banAt (hb : Banded pdc.ecrgn.rects) (k : Nat) : Banded (banAt pdc.ecrgn k) := by
  apply banded_curBand
  rw [← take_append_drop k pdc.ecrgn.rects, banded_append] at hb
  exact hb.2.1

theorem second_pixel {ban : List Rect} (hb : Banded ban) (hab : a ≤ b)
    (hband : ∀ c ∈ ban, ∀ d ∈ ban, c.top = d.top)
    (hfirst : ban.dropWhile (fun c => !(inRect pdc.rcOutput a y && inRect c a y)) ≠ [])
    : (∃ c ∈ ban.dropWhile (fun c => !(inRect pdc.rcOutput a y && inRect c a y)),
          (inRect pdc.rcOutput b y && inRect c b y) = true)
        ↔ ∃ c ∈ ban, (inRect pdc.rcOutput b y && inRect c b y) = true := by
  generalize hq : (fun c => !(inRect pdc.rcOutput a y && inRect c a y)) = q at hfirst
  have hsplit := takeWhile_append_dropWhile (p := q) (l := ban)
  cases hrest : ban.dropWhile q with
  | nil => exact absurd hrest hfirst
  | cons e m =>
    have he : e.Mem a y := by
      have hnot := head?_dropWhile_not q ban
      rw [hrest, ← hq] at hnot
      simp at hnot
      exact (inRect_iff e a y).mp hnot.2
    constructor
    . rintro ⟨c, hc, hin⟩
      refine ⟨c, ?_, hin⟩
      rw [← hsplit, hrest, mem_append]
      exact .inr hc
    rintro ⟨c, hc, hin⟩
    refine ⟨c, ?_, hin⟩
    rw [← hsplit, hrest, mem_append] at hc
    rcases hc with hc | hc
    . exfalso
      have hcban : c ∈ ban := by
        rw [← hsplit, mem_append]
        exact .inl hc
      have heban : e ∈ ban := by
        rw [← hsplit, hrest]
        simp
      rw [← hsplit, hrest] at hb
      rw [Bool.and_eq_true, inRect_iff, inRect_iff] at hin
      have hc' := hin.2
      simp only [Rect.Mem] at he hc'
      rcases (banded_append.mp hb).2.2 c hc e (by simp) with hf | hf
      . omega
      . omega
    . exact hc

theorem banAt_top {k : Nat} : ∀ c ∈ banAt pdc.ecrgn k, ∀ d ∈ banAt pdc.ecrgn k, c.top = d.top := by
  unfold banAt
  cases pdc.ecrgn.rects.drop k with
  | nil => simp [curBand]
  | cons e m =>
    intro c hc d hd
    rw [mem_curBand_top hc, mem_curBand_top hd]

theorem setPixelPairClip_exact (hb : Banded pdc.ecrgn.rects) (hne : pdc.ecrgn.rects ≠ [])
    (hcur : BanOk pdc.ecrgn curBan) {x1 x2 : Int} : (pdc.setPixelPairClip curBan x1 x2 y).1.Nodup
        ∧ ∀ p, p ∈ (pdc.setPixelPairClip curBan x1 x2 y).1 ↔ (p = (x1, y) ∨ p = (x2, y)) ∧ pdc.Visible p := by
  unfold setPixelPairClip
  generalize ha : (if x1 > x2 then x2 else x1) = a
  generalize hb' : (if x1 > x2 then x1 else x2) = b
  have hab : a ≤ b := by
    rw [← ha, ← hb']
    split <;> omega
  have hpair : ∀ p : Int × Int, (p = (x1, y) ∨ p = (x2, y)) ↔ (p = (a, y) ∨ p = (b, y)) := by
    intro p
    rw [← ha, ← hb']
    split
    . exact or_comm
    . rfl
  simp only [hpair]
  cases hban : dcWhichRegionBan pdc.ecrgn curBan y with
  | none =>
    refine ⟨by simp, ?_⟩
    have hnot : ∀ x, ¬pdc.Visible (x, y) := by
      intro x
      rw [visible_iff hb hne hcur, hban]
      simp
    intro p
    simp only [not_mem_nil, false_iff]
    rintro ⟨hp | hp, hvis⟩
    . rw [hp] at hvis
      exact hnot a hvis
    . rw [hp] at hvis
      exact hnot b hvis
  | some k =>
    simp only
    have hva := find_visible (x := a) hb hne hcur hban
    have hvb := find_visible (x := b) hb hne hcur hban
    have hband := banded_banAt hb k
    have htop := @banAt_top pdc k
    generalize banAt pdc.ecrgn k = ban at hva hvb hband htop
    have hsecond := @second_pixel pdc y a b ban hband hab htop
    generalize hrest : ban.dropWhile (fun c => !(inRect pdc.rcOutput a y && inRect c a y)) = rest at hsecond
    have hfirst : rest = [] ↔ ¬pdc.Visible (a, y) := by
      rw [hva, ← hrest, dropWhile_eq_nil_iff]
      simp only [Bool.not_eq_true', not_exists, not_and, Bool.not_eq_true]
    have hmem : ∀ p q : Int × Int, (p = q ∧ pdc.Visible p) ↔ (p = q ∧ pdc.Visible q) := by
      intro p q
      constructor
      . rintro ⟨hp, hvis⟩
        exact ⟨hp, hp ▸ hvis⟩
      . rintro ⟨hp, hvis⟩
        exact ⟨hp, hp ▸ hvis⟩
    simp only [or_and_right]
    rw [forall_congr' (fun p => by rw [hmem p (a, y), hmem p (b, y)])]
    by_cases hne' : a = b
    . rw [if_neg (by simpa using hne'), ← hne']
      simp only [or_self]
      by_cases hnil : rest = []
      . simp [hnil, hfirst.mp hnil]
      have hva' : pdc.Visible (a, y) := by
        by_contra hnot
        exact hnil (hfirst.mpr hnot)
      simp [hnil, hva']
    rw [if_pos hne']
    have hfind : ∀ l : List Rect, ((∃ c ∈ l, (inRect pdc.rcOutput b y && inRect c b y) = true) ↔ pdc.Visible (b, y))
        → (l.find? (fun c => inRect pdc.rcOutput b y && inRect c b y) = none ↔ ¬pdc.Visible (b, y)) := by
      intro l hl
      rw [← hl, find?_eq_none]
      simp only [not_exists, not_and, Bool.not_eq_true]
    by_cases hnil : rest = []
    . have hb'' := hfind ban hvb.symm
      simp only [hnil, if_true]
      have hva' := hfirst.mp hnil
      split
      . next c hc =>
        have hvb' : pdc.Visible (b, y) := by
          by_contra hnot
          rw [hb''.mpr hnot] at hc
          simp at hc
        simp [hva', hvb']
      . next hc =>
        simp [hva', hb''.mp hc]
    have hb'' := hfind rest ((hsecond hnil).trans hvb.symm)
    simp only [hnil, if_false]
    have hva' : pdc.Visible (a, y) := by
      by_contra hnot
      exact hnil (hfirst.mpr hnot)
    split
    . next c hc =>
      have hvb' : pdc.Visible (b, y) := by
        by_contra hnot
        rw [hb''.mpr hnot] at hc
        simp at hc
      simp [hva', hvb', hne']
    . next hc =>
      simp [hva', hb''.mp hc]

theorem intersectRect_snd (a b : Rect) : (intersectRect a b).2
        =
      ⟨max a.left b.left, max a.top b.top, min a.right b.right, min a.bottom b.bottom⟩ := by
  simp only [intersectRect]
  grind

theorem dcClipHline_eq (cliprc : Rect) (hproper : cliprc.left < cliprc.right) (px py pw : Int) (hpw : 0 < pw)
    : dcClipHline cliprc px py pw
        =
      if (cliprc.top ≤ py ∧ py < cliprc.bottom) ∧ max px cliprc.left < min (px + pw) cliprc.right then
        some (max px cliprc.left, min (px + pw) cliprc.right - max px cliprc.left)
      else
        none := by
  unfold dcClipHline
  grind

theorem hlineIn_eq (hab : a ≤ b) (r : Rect) : pdc.hlineIn a (b - a + 1) y r
        =
      if pdc.OnRow a b y r then
        (dots pdc.step (pdc.hsegment a b r).1 ((pdc.hsegment a b r).2 - (pdc.hsegment a b r).1)).map (fun p => (p, y))
      else
        [] := by
  unfold hlineIn
  simp only [intersectRect_fst, intersectRect_snd, doesIntersect_iff]
  have hrow : pdc.OnRow a b y r ↔ (r.top ≤ y ∧ y < r.bottom) ∧ (pdc.rcOutput.top ≤ y ∧ y < pdc.rcOutput.bottom)
      ∧ max a (max pdc.rcOutput.left r.left) < min (b + 1) (min pdc.rcOutput.right r.right) := Iff.rfl
  by_cases hproper : max pdc.rcOutput.left r.left < min pdc.rcOutput.right r.right
      ∧ max pdc.rcOutput.top r.top < min pdc.rcOutput.bottom r.bottom
  . rw [if_pos hproper, dcClipHline_eq _ hproper.1 _ _ _ (by omega)]
    have hend : a + (b - a + 1) = b + 1 := by omega
    rw [hend]
    simp only
    by_cases hon : pdc.OnRow a b y r
    . have hon' := hrow.mp hon
      rw [if_pos hon, if_pos (by omega)]
      rfl
    . have hon' := mt hrow.mpr hon
      rw [if_neg hon, if_neg (by omega)]
  . have hoff : ¬pdc.OnRow a b y r := by
      rw [hrow]
      omega
    rw [if_neg hproper, if_neg hoff]

theorem flatMap_hlineIn (hab : a ≤ b) (l : List Rect) : l.flatMap (pdc.hlineIn a (b - a + 1) y)
        =
      (written pdc.step ((l.filter (fun r => pdc.OnRow a b y r)).map (pdc.hsegment a b))).map (fun p => (p, y)) := by
  induction l with
  | nil => rfl
  | cons r l ih =>
    rw [flatMap_cons, ih, hlineIn_eq hab]
    by_cases hrow : pdc.OnRow a b y r
    . rw [if_pos hrow, filter_cons_of_pos (by simpa using hrow)]
      simp [written]
    . rw [if_neg hrow, filter_cons_of_neg (by simpa using hrow)]
      simp

theorem hsegments_sorted (hb : Banded l)
    : ((l.filter (fun r => pdc.OnRow a b y r)).map (pdc.hsegment a b)).Pairwise
        (fun s t => s.1 < s.2 ∧ s.2 ≤ t.1) := by
  rw [pairwise_map]
  apply List.Pairwise.imp_of_mem _ (hb.2.filter _)
  intro r c hr hc hfollows
  rw [mem_filter, decide_eq_true_eq] at hr hc
  have hr' := hr.2
  have hc' := hc.2
  unfold OnRow at hr' hc'
  refine ⟨hr'.2.2, ?_⟩
  unfold hsegment
  rcases hfollows with hf | hf
  . simp only
    omega
  . omega

theorem mem_of_mem_banAt {k : Nat} (h : r ∈ banAt pdc.ecrgn k) : r ∈ pdc.ecrgn.rects := by
  have hdrop : r ∈ pdc.ecrgn.rects.drop k := by
    rw [← curBand_append_bandEnd (pdc.ecrgn.rects.drop k), mem_append]
    exact .inl h
  exact mem_of_mem_drop hdrop

theorem exact_map {f : Int → Int × Int} (hf : Injective f) {w : List Int} {q : Int × Int → Prop}
    (hq : ∀ p, q p → ∃ t, p = f t)
    : ((w.map f).Nodup ∧ ∀ p, p ∈ w.map f ↔ q p) ↔ w.Nodup ∧ ∀ t, t ∈ w ↔ q (f t) := by
  rw [nodup_map_iff hf]
  constructor
  . rintro ⟨hnodup, hmem⟩
    refine ⟨hnodup, ?_⟩
    intro t
    rw [← hmem, mem_map_of_injective hf]
  rintro ⟨hnodup, hmem⟩
  refine ⟨hnodup, ?_⟩
  intro p
  constructor
  . intro hp
    rw [mem_map] at hp
    rcases hp with ⟨t, ht, hpt⟩
    rw [← hpt]
    exact (hmem t).mp ht
  intro hp
  rcases hq p hp with ⟨t, ht⟩
  rw [ht] at hp ⊢
  rw [mem_map_of_injective hf]
  exact (hmem t).mpr hp

theorem stepped_pixel (hb : Banded pdc.ecrgn.rects) (hne : pdc.ecrgn.rects ≠ []) (hcur : BanOk pdc.ecrgn curBan)
    (t : Int) : (if t.tmod pdc.step = 0 then pdc.setPixelClip curBan x y else ([], curBan)).1.Nodup
        ∧ ∀ p, p ∈ (if t.tmod pdc.step = 0 then pdc.setPixelClip curBan x y else ([], curBan)).1
            ↔ (p = (x, y) ∧ t % pdc.step = 0) ∧ pdc.Visible p := by
  have hpixel := setPixelClip_exact (x := x) (y := y) hb hne hcur
  have hmod : t.tmod pdc.step = 0 ↔ t % pdc.step = 0 := by
    rw [← Int.dvd_iff_tmod_eq_zero, ← Int.dvd_iff_emod_eq_zero]
  simp only [hmod]
  split
  . next h =>
    simp only [h, and_true]
    exact hpixel
  . next h =>
    simp [h]

theorem mem_banAt_of_row (hb : Banded pdc.ecrgn.rects) {k : Nat}
    (hban : ∀ x, Covers pdc.ecrgn.rects x y ↔ Covers (banAt pdc.ecrgn k) x y) (hr : r ∈ pdc.ecrgn.rects)
    (hrow : r.top ≤ y ∧ y < r.bottom) : r ∈ banAt pdc.ecrgn k := by
  have hpos := hb.1 r hr
  have hmem : r.Mem r.left y := ⟨by omega, by omega, hrow⟩
  rcases (hban r.left).mp ⟨r, hr, hmem⟩ with ⟨c, hc, hcmem⟩
  have hcl := mem_of_mem_banAt hc
  rw [hb.eq_of_mem hr hcl hmem hcmem]
  exact hc

theorem visible_on_row {k : Nat} (hban : ∀ x, Covers pdc.ecrgn.rects x y ↔ Covers (banAt pdc.ecrgn k) x y) {t : Int}
    : (a ≤ t ∧ t ≤ b) ∧ pdc.Visible (t, y)
        ↔
      ∃ s ∈ ((banAt pdc.ecrgn k).filter (fun r => pdc.OnRow a b y r)).map (pdc.hsegment a b), s.1 ≤ t ∧ t < s.2 := by
  unfold Visible
  simp only [hban, mem_map, mem_filter, decide_eq_true_eq]
  constructor
  . rintro ⟨hline, ⟨r, hr, hmem⟩, hout⟩
    simp only [Rect.Mem] at hmem hout
    have hseg : (pdc.hsegment a b r).1 ≤ t ∧ t < (pdc.hsegment a b r).2 := by
      unfold hsegment
      simp only
      omega
    refine ⟨_, ⟨r, ⟨hr, ?_⟩, rfl⟩, hseg⟩
    unfold OnRow
    omega
  rintro ⟨s, ⟨r, ⟨hr, hrow⟩, hs⟩, hseg⟩
  rw [← hs] at hseg
  unfold OnRow at hrow
  unfold hsegment at hseg
  simp only at hseg
  refine ⟨by omega, ⟨r, hr, ?_⟩, ?_⟩
  . simp only [Rect.Mem]
    omega
  . simp only [Rect.Mem]
    omega

def HlineOk (pdc : ScanDc) (x1 x2 y : Int) : Prop :=
  if 0 ≤ y ∧ y < pdc.scrBottom then
    x1 = x2 ∨ ∀ r ∈ pdc.ecrgn.rects, pdc.OnRow (min x1 x2) (max x1 x2) y r →
      SegOk pdc.step (pdc.hsegment (min x1 x2) (max x1 x2) r).1 (pdc.hsegment (min x1 x2) (max x1 x2) r).2
  else
    ∀ x, (min x1 x2 ≤ x ∧ x ≤ max x1 x2) ∧ x % pdc.step = 0 → ¬pdc.Visible (x, y)

theorem drawHlineClip_exact (hstep : pdc.step = 1 ∨ pdc.step = 2) (hb : Banded pdc.ecrgn.rects)
    (hne : pdc.ecrgn.rects ≠ []) (hcur : BanOk pdc.ecrgn curBan) (x1 x2 y : Int)
    : pdc.Exact curBan (.drawHline x1 x2 y) ↔ pdc.HlineOk x1 x2 y := by
  unfold Exact HlineOk
  simp only [exec, drawHlineClip, Scan.Shape]
  by_cases hscr : 0 ≤ y ∧ y < pdc.scrBottom
  . have hcond : ¬(decide (y < 0) || decide (y ≥ pdc.scrBottom)) = true := by
      simp only [Bool.or_eq_true, decide_eq_true_eq]
      omega
    rw [if_neg hcond, if_pos hscr]
    by_cases hpoint : x1 = x2
    . simp only [hpoint, if_true, true_or, iff_true, min_self, max_self]
      have hshape : ∀ p : Int × Int, (p.2 = y ∧ (x2 ≤ p.1 ∧ p.1 ≤ x2) ∧ p.1 % pdc.step = 0)
          ↔ p = (x2, y) ∧ x2 % pdc.step = 0 := by
        rintro ⟨t, row⟩
        simp only [Prod.mk.injEq]
        grind
      simp only [hshape]
      exact stepped_pixel hb hne hcur x2
    simp only [hpoint, if_false, false_or]
    have hmin : (if x1 > x2 then x2 else x1) = min x1 x2 := by omega
    have hmax : (if x1 > x2 then x1 else x2) = max x1 x2 := by omega
    rw [hmin, hmax]
    have hab : min x1 x2 ≤ max x1 x2 := by omega
    generalize min x1 x2 = a at hab
    generalize max x1 x2 = b at hab
    have hspec := dcWhichRegionBan_spec (y := y) hb hne hcur
    cases hban : dcWhichRegionBan pdc.ecrgn curBan y with
    | none =>
      rw [hban] at hspec
      have hnone : ∀ t, ¬pdc.Visible (t, y) := by
        intro t ht
        exact hspec t ht.1
      simp only [nodup_nil, not_mem_nil, false_iff, true_and]
      constructor
      . intro _ r hr hrow
        have hpos := hb.1 r hr
        exact absurd ⟨r, hr, ⟨by omega, by omega, hrow.1⟩⟩ (hspec r.left)
      rintro _ ⟨t, row⟩ ⟨⟨hrow, _⟩, hvis⟩
      simp only at hrow
      rw [hrow] at hvis
      exact hnone t hvis
    | some k =>
      rw [hban] at hspec
      simp only [flatMap_hlineIn hab]
      have hinj : Injective (fun t : Int => (t, y)) := by
        intro s t hst
        simpa using hst
      rw [exact_map hinj]
      . have hexact := written_exact hstep (@hsegments_sorted pdc y a b _ (banded_banAt hb k)) (fun _ => False)
          (by simp)
        simp only [or_false, false_implies, implies_true, and_true] at hexact
        have hshape : ∀ t, ((True ∧ (a ≤ t ∧ t ≤ b) ∧ t % pdc.step = 0) ∧ pdc.Visible (t, y))
            ↔ ((a ≤ t ∧ t ≤ b) ∧ pdc.Visible (t, y)) ∧ t % pdc.step = 0 := by
          intro t
          tauto
        simp only [hshape, visible_on_row hspec.2]
        rw [hexact]
        simp only [mem_map, mem_filter, decide_eq_true_eq]
        constructor
        . intro hok r hr hrow
          exact hok _ ⟨r, ⟨mem_banAt_of_row hb hspec.2 hr hrow.1, hrow⟩, rfl⟩
        . rintro hok s ⟨r, ⟨hr, hrow⟩, hs⟩
          rw [← hs]
          exact hok r (mem_of_mem_banAt hr) hrow
      . rintro p ⟨⟨hy, _⟩, _⟩
        refine ⟨p.1, ?_⟩
        rw [← hy]
  have hcond : (decide (y < 0) || decide (y ≥ pdc.scrBottom)) = true := by
    simp only [Bool.or_eq_true, decide_eq_true_eq]
    omega
  rw [if_pos hcond, if_neg hscr]
  constructor
  . rintro ⟨_, hmem⟩ x hx hvis
    have hnil := (hmem (x, y)).mpr ⟨⟨rfl, hx⟩, hvis⟩
    simp at hnil
  intro hnone
  refine ⟨by simp, ?_⟩
  rintro ⟨x, row⟩
  simp only [not_mem_nil, false_iff]
  rintro ⟨⟨hrow, hx⟩, hvis⟩
  rw [hrow] at hvis
  exact hnone x hx hvis

end ScanDc

theorem any_inRect_iff (l : List Rect) (x y : Int) : l.any (fun c => inRect c x y) = true ↔ Covers l x y := by
  rw [any_eq_true]
  unfold Covers
  simp only [ScanDc.inRect_iff]

theorem covers_band (hb : Banded l) (x y : Int)
    : Covers l x y ↔ Covers (curBand (l.dropWhile fun c => decide (y ≥ c.bottom))) x y := by
  have hsplit := takeWhile_append_dropWhile (p := fun c : Rect => decide (y ≥ c.bottom)) (l := l)
  generalize hpast : l.takeWhile (fun c => decide (y ≥ c.bottom)) = past at hsplit
  generalize hrest : l.dropWhile (fun c => decide (y ≥ c.bottom)) = rest at hsplit
  have hpastle : ∀ r ∈ past, r.bottom ≤ y := by
    intro r hr
    rw [← hpast] at hr
    simpa using mem_takeWhile_imp hr
  rw [← hsplit, covers_right hpastle]
  cases hcases : rest with
  | nil => rfl
  | cons c rest' =>
    rw [← hsplit, hcases] at hb
    have hbc := (banded_append.mp hb).2.1
    conv => lhs; rw [← curBand_append_bandEnd (c :: rest')]
    apply covers_left
    intro r hr
    have htop := hbc.top_of_bandEnd hr
    have hc : y < c.bottom := by
      have hnot := head?_dropWhile_not (fun c : Rect => decide (y ≥ c.bottom)) l
      rw [hrest, hcases] at hnot
      simpa using hnot
    omega

end MiniGui
