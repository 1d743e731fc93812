import MiniGui.Gdi.Region
import MiniGui.Library.Spans

namespace MiniGui

open Span (diff diffFrom emit inter merge union unionFrom)

def Covers (l : List Rect) (x y : Int) : Prop :=
  ∃ r ∈ l, r.Mem x y

def Follows (a b : Rect) : Prop :=
  (a.top = b.top ∧ a.bottom = b.bottom ∧ a.right < b.left) ∨ a.bottom ≤ b.top

def Banded (l : List Rect) : Prop :=
  (∀ r ∈ l, r.left < r.right ∧ r.top < r.bottom) ∧ l.Pairwise Follows

def Above (l m : List Rect) : Prop :=
  ∀ a ∈ l, ∀ b ∈ m, a.bottom ≤ b.top

@[simp]
theorem covers_nil (x y : Int) : Covers [] x y ↔ False := by
  simp [Covers]

@[simp]
theorem covers_cons (r : Rect) (l : List Rect) (x y : Int)
    : Covers (r :: l) x y ↔ r.Mem x y ∨ Covers l x y := by
  simp [Covers]

@[simp]
theorem covers_append (l m : List Rect) (x y : Int)
    : Covers (l ++ m) x y ↔ Covers l x y ∨ Covers m x y := by
  simp only [Covers, List.mem_append, or_and_right, exists_or]

@[simp]
theorem banded_nil : Banded [] := by
  simp [Banded]

variable {a r : Rect} {s : List (Span Int)}

theorem banded_cons {l : List Rect} : Banded (a :: l)
        ↔
      (a.left < a.right ∧ a.top < a.bottom) ∧ (∀ b ∈ l, Follows a b) ∧ Banded l := by
  simp only [Banded, List.mem_cons, forall_eq_or_imp, List.pairwise_cons]
  tauto

theorem banded_append {l m : List Rect}
    : Banded (l ++ m) ↔ Banded l ∧ Banded m ∧ ∀ a ∈ l, ∀ b ∈ m, Follows a b := by
  simp only [Banded, List.forall_mem_append, List.pairwise_append]
  tauto

theorem Above.follows {l m : List Rect} (h : Above l m) : ∀ a ∈ l, ∀ b ∈ m, Follows a b := by
  intro a ha b hb
  exact .inr (h a ha b hb)

theorem not_covers_of_bottom_le {l : List Rect} {x y b : Int} (hl : ∀ r ∈ l, r.bottom ≤ b)
    (hy : b ≤ y) : ¬Covers l x y := by
  rintro ⟨r, hr, hm⟩
  have := hl r hr
  simp only [Rect.Mem] at hm
  omega

theorem not_covers_of_le_top {l : List Rect} {x y b : Int} (hl : ∀ r ∈ l, b ≤ r.top) (hy : y < b)
    : ¬Covers l x y := by
  rintro ⟨r, hr, hm⟩
  have := hl r hr
  simp only [Rect.Mem] at hm
  omega

def spans (l : List Rect) : List (Span Int) :=
  l.map (fun r => ⟨r.left, r.right⟩)

def rows (top bottom : Int) (s : List (Span Int)) : List Rect :=
  s.map (fun s => ⟨s.lo, top, s.hi, bottom⟩)

@[simp]
theorem spans_nil : spans [] = [] := by
  rfl

@[simp]
theorem spans_cons (r : Rect) (l : List Rect) : spans (r :: l) = ⟨r.left, r.right⟩ :: spans l := by
  rfl

@[simp]
theorem rows_nil (top bottom : Int) : rows top bottom [] = [] := by
  rfl

@[simp]
theorem rows_cons (top bottom : Int) (s : Span Int) (l : List (Span Int))
    : rows top bottom (s :: l) = ⟨s.lo, top, s.hi, bottom⟩ :: rows top bottom l := by
  rfl

theorem mem_rows {top bottom : Int} (h : r ∈ rows top bottom s)
    : r.top = top ∧ r.bottom = bottom := by
  simp only [rows, List.mem_map] at h
  rcases h with ⟨a, _, ha⟩
  simp [← ha]

theorem banded_rows {top bottom : Int} (hs : Span.Gapped s) (h : top < bottom)
    : Banded (rows top bottom s) := by
  induction s with
  | nil => simp
  | cons a s ih =>
    rw [Span.gapped_cons] at hs
    rw [rows_cons, banded_cons]
    refine ⟨⟨hs.1, h⟩, ?_, ih hs.2.2⟩
    intro b hb
    simp only [rows, List.mem_map] at hb
    rcases hb with ⟨c, hc, hcb⟩
    apply Or.inl
    rw [← hcb]
    simp [hs.2.1 c hc]

theorem covers_rows (top bottom : Int) (s : List (Span Int)) (x y : Int)
    : Covers (rows top bottom s) x y ↔ Span.Covers s x ∧ top ≤ y ∧ y < bottom := by
  induction s with
  | nil => simp
  | cons a s ih =>
    rw [rows_cons, covers_cons, ih, Span.covers_cons]
    simp only [Rect.Mem, Span.Mem]
    tauto

section Band

theorem curBand_append_bandEnd (l : List Rect) : curBand l ++ bandEnd l = l := by
  cases l with
  | nil => rfl
  | cons r l => apply List.takeWhile_append_dropWhile

variable {l : List Rect}

theorem mem_curBand_top (h : r ∈ curBand (a :: l)) : r.top = a.top := by
  have := List.mem_takeWhile_imp h
  simpa using this

theorem banded_curBand (h : Banded l) : Banded (curBand l) := by
  rw [← curBand_append_bandEnd l, banded_append] at h
  exact h.1

theorem banded_bandEnd (h : Banded l) : Banded (bandEnd l) := by
  rw [← curBand_append_bandEnd l, banded_append] at h
  exact h.2.1

theorem Banded.bottom_of_curBand (h : Banded (a :: l)) (hr : r ∈ curBand (a :: l))
    : r.bottom = a.bottom := by
  have htop := mem_curBand_top hr
  have hr : r ∈ a :: l := by
    rw [← curBand_append_bandEnd (a :: l)]
    simp [hr]
  rw [banded_cons] at h
  rcases List.mem_cons.mp hr with hr | hr
  . rw [hr]
  . rcases h.2.1 r hr with hf | hf
    . exact hf.2.1.symm
    . omega

theorem Banded.top_of_bandEnd (h : Banded (a :: l)) (hr : r ∈ bandEnd (a :: l))
    : a.bottom ≤ r.top := by
  have hend := banded_bandEnd h
  have hsplit := curBand_append_bandEnd (a :: l)
  cases hb : bandEnd (a :: l) with
  | nil => simp [hb] at hr
  | cons b m =>
    have hne : b.top ≠ a.top := by
      have := List.head?_dropWhile_not (fun c : Rect => decide (c.top = a.top)) (a :: l)
      simp only [bandEnd] at hb
      rw [hb] at this
      simpa using this
    have hbl : b ∈ a :: l := by
      rw [← hsplit, hb]
      simp
    have hab : a.bottom ≤ b.top := by
      rcases List.mem_cons.mp hbl with heq | hmem
      . rw [heq] at hne
        omega
      . rcases (banded_cons.mp h).2.1 b hmem with hf | hf
        . omega
        . exact hf
    rw [hb] at hend hr
    rw [banded_cons] at hend
    rcases List.mem_cons.mp hr with heq | hmem
    . rw [heq]
      exact hab
    rcases hend.2.1 r hmem with hf | hf
    . omega
    . have := hend.1.2
      omega

theorem Banded.head_top_le (h : Banded (a :: l)) (hr : r ∈ a :: l) : a.top ≤ r.top := by
  rw [banded_cons] at h
  rcases List.mem_cons.mp hr with heq | hmem
  . rw [heq]
  . rcases h.2.1 r hmem with hf | hf
    . omega
    . omega

theorem Banded.head_bottom_le (h : Banded (a :: l)) (hr : r ∈ a :: l) : a.bottom ≤ r.bottom := by
  have hr' := h.1 r hr
  rw [banded_cons] at h
  rcases List.mem_cons.mp hr with heq | hmem
  . rw [heq]
  . rcases h.2.1 r hmem with hf | hf
    . omega
    . omega

theorem Banded.gapped_curBand (h : Banded l) : Span.Gapped (spans (curBand l)) := by
  cases l with
  | nil => simp [curBand]
  | cons a l =>
    have hb := banded_curBand h
    have htop := fun r hr => mem_curBand_top (a := a) (r := r) (l := l) hr
    generalize curBand (a :: l) = m at hb htop
    induction m with
    | nil => simp
    | cons b m ih =>
      rw [banded_cons] at hb
      rw [spans_cons, Span.gapped_cons]
      refine ⟨hb.1.1, ?_, ?_⟩
      . intro t ht
        simp only [spans, List.mem_map] at ht
        rcases ht with ⟨c, hc, hct⟩
        have h1 := htop b (by simp)
        have h2 := htop c (by simp [hc])
        rw [← hct]
        rcases hb.2.1 c hc with hf | hf
        . exact hf.2.2
        . omega
      apply ih
      . exact hb.2.2
      . intro r hr
        apply htop
        simp [hr]

theorem Banded.covers_curBand (h : Banded (a :: l)) {x y : Int} (h1 : a.top ≤ y) (h2 : y < a.bottom)
    : Covers (a :: l) x y ↔ Span.Covers (spans (curBand (a :: l))) x := by
  have hend : ¬Covers (bandEnd (a :: l)) x y := by
    apply not_covers_of_le_top (b := a.bottom)
    . intro r hr
      exact h.top_of_bandEnd hr
    . exact h2
  have hrows : curBand (a :: l)
      = rows a.top a.bottom (spans (curBand (a :: l))) := by
    have htop := fun r hr => mem_curBand_top (a := a) (r := r) (l := l) hr
    have hbot := fun r hr => h.bottom_of_curBand (r := r) hr
    generalize curBand (a :: l) = m at htop hbot
    induction m with
    | nil => rfl
    | cons b m ih =>
      have h1 := htop b (by simp)
      have h2 := hbot b (by simp)
      rw [spans_cons, rows_cons, ← ih]
      . simp only [← h1, ← h2]
      . intro r hr
        apply htop
        simp [hr]
      . intro r hr
        apply hbot
        simp [hr]
  have hband : Covers (curBand (a :: l)) x y
      ↔ Span.Covers (spans (curBand (a :: l))) x := by
    conv => lhs; rw [hrows]
    rw [covers_rows]
    simp [h1, h2]
  rw [← hband]
  conv => lhs; rw [← curBand_append_bandEnd (a :: l)]
  rw [covers_append]
  simp [hend]

theorem Banded.covers_bandEnd (h : Banded (a :: l)) {x y : Int} (hy : a.bottom ≤ y)
    : Covers (bandEnd (a :: l)) x y ↔ Covers (a :: l) x y := by
  have hband : ¬Covers (curBand (a :: l)) x y := by
    apply not_covers_of_bottom_le (b := a.bottom)
    . intro r hr
      rw [h.bottom_of_curBand hr]
    . exact hy
  conv => rhs; rw [← curBand_append_bandEnd (a :: l)]
  rw [covers_append]
  simp [hband]

theorem Banded.not_covers_above (h : Banded (a :: l)) {x y : Int} (hy : y < a.top)
    : ¬Covers (a :: l) x y := by
  apply not_covers_of_le_top (b := a.top)
  . intro r hr
    exact h.head_top_le hr
  . exact hy

end Band

theorem regionUnionNonO_eq (region r : List Rect) (top bottom : Int)
    : regionUnionNonO region r top bottom = region ++ rows top bottom (spans r) := by
  induction r generalizing region with
  | nil => simp [regionUnionNonO]
  | cons a r ih => simp [regionUnionNonO, newClipRect, ih]

theorem regionSubtractNonO1_eq (region r : List Rect) (top bottom : Int)
    : regionSubtractNonO1 region r top bottom = region ++ rows top bottom (spans r) := by
  induction r generalizing region with
  | nil => simp [regionSubtractNonO1]
  | cons a r ih => simp [regionSubtractNonO1, newClipRect, ih]

theorem emit_rows (region : List Rect) (lo hi top bottom : Int) (s : List (Span Int))
    : (if lo < hi then newClipRect region ⟨lo, top, hi, bottom⟩ else region) ++ rows top bottom s
        =
      region ++ rows top bottom (emit lo hi s) := by
  unfold emit
  split <;> simp [newClipRect]

theorem regionIntersectO_eq (region r1 r2 : List Rect) (top bottom : Int)
    : regionIntersectO region r1 r2 top bottom
        =
      region ++ rows top bottom (inter (spans r1) (spans r2)) := by
  fun_induction regionIntersectO region r1 r2 top bottom with
  | case1 region a r1 b r2 left right region' h ih =>
    rw [ih]
    simp only [spans_cons]
    conv => rhs; unfold inter
    rw [← emit_rows]
    simp [h, region', left, right]
  | case2 region a r1 b r2 left right region' h1 h2 ih | case3 region a r1 b r2 left right region' h1 h2 ih =>
    rw [ih]
    simp only [spans_cons]
    conv => rhs; unfold inter
    rw [← emit_rows]
    simp [h1, h2, region', left, right]
  | case4 region r1 r2 h =>
    unfold inter
    cases r1 with
    | nil => simp
    | cons a r1 =>
      cases r2 with
      | nil => simp
      | cons b r2 => exact absurd rfl (h a r1 b r2 rfl)

theorem mergeRect_eq (pre : List Rect) (cur : Span Int) (r : Rect) (top bottom : Int)
    : mergeRect (pre ++ [⟨cur.lo, top, cur.hi, bottom⟩]) r top bottom
        =
      pre ++ rows top bottom (merge cur ⟨r.left, r.right⟩).1.toList
        ++ [⟨(merge cur ⟨r.left, r.right⟩).2.lo, top,
              (merge cur ⟨r.left, r.right⟩).2.hi, bottom⟩] := by
  unfold mergeRect merge
  simp only [List.getLast?_append, List.getLast?_singleton, Option.some_or, true_and, ge_iff_le,
    List.dropLast_concat]
  split
  . split <;> simp
  . simp [newClipRect]

theorem regionUnionO_open (region r1 r2 : List Rect) (top bottom : Int) (pre : List Rect)
    (cur : Span Int) (h : region = pre ++ [⟨cur.lo, top, cur.hi, bottom⟩])
    : regionUnionO region r1 r2 top bottom
        =
      pre ++ rows top bottom (unionFrom cur (spans r1) (spans r2)) := by
  fun_induction regionUnionO region r1 r2 top bottom generalizing pre cur with
  | case1 region a r1 b r2 hlt ih | case2 region a r1 b r2 hlt ih =>
    rw [h, mergeRect_eq] at ih ⊢
    rw [ih _ _ rfl]
    simp only [spans_cons]
    conv => rhs; unfold unionFrom
    simp [hlt, rows]
  | case3 region a r1 ih | case4 region b r2 ih =>
    rw [h, mergeRect_eq] at ih ⊢
    rw [ih _ _ rfl]
    simp only [spans_cons, spans_nil]
    conv => rhs; unfold unionFrom
    simp [rows]
  | case5 region =>
    rw [h]
    simp [unionFrom]

theorem mergeRect_new (region : List Rect) (r : Rect) (top bottom : Int)
    (h : ∀ t ∈ region, t.top ≠ top)
    : mergeRect region r top bottom = region ++ [⟨r.left, top, r.right, bottom⟩] := by
  unfold mergeRect
  split
  . next tail htail =>
    have : tail.top ≠ top := by
      apply h
      apply List.mem_of_getLast? htail
    simp [this, newClipRect]
  . rfl

theorem regionUnionO_eq (region r1 r2 : List Rect) (top bottom : Int)
    (h : ∀ t ∈ region, t.top ≠ top) : regionUnionO region r1 r2 top bottom
        =
      region ++ rows top bottom (union (spans r1) (spans r2)) := by
  unfold regionUnionO
  split
  . next a r1 b r2 =>
    simp only [spans_cons, union]
    split
    . rw [mergeRect_new _ _ _ _ h]
      rw [regionUnionO_open _ _ _ _ _ _ ⟨a.left, a.right⟩ rfl]
      rfl
    . rw [mergeRect_new _ _ _ _ h]
      rw [regionUnionO_open _ _ _ _ _ _ ⟨b.left, b.right⟩ rfl]
      rfl
  . next a r1 =>
    rw [mergeRect_new _ _ _ _ h]
    rw [regionUnionO_open _ _ _ _ _ _ ⟨a.left, a.right⟩ rfl]
    rfl
  . next b r2 =>
    rw [mergeRect_new _ _ _ _ h]
    rw [regionUnionO_open _ _ _ _ _ _ ⟨b.left, b.right⟩ rfl]
    rfl
  . simp [union]

theorem advance_eq (left : Int) (r : List Rect)
    : regionSubtractO.advance left r = Span.nextLeft left (spans r) := by
  cases r <;> rfl

theorem regionSubtractO_go_eq (top bottom left : Int) (region r1 r2 : List Rect)
    : regionSubtractO.go top bottom left region r1 r2
        =
      region ++ rows top bottom (diffFrom left (spans r1) (spans r2)) := by
  fun_induction regionSubtractO.go top bottom left region r1 r2 with
  | case1 => simp [diffFrom]
  | case2 left region a r1 ih =>
    rw [ih, advance_eq]
    simp [diffFrom, newClipRect]
  | case3 left region a r1 b r2 h ih =>
    rw [ih]
    simp [diffFrom, h]
  | case4 left region a r1 b r2 h1 h2 h3 ih =>
    rw [ih, advance_eq]
    conv => rhs; simp only [spans_cons]; unfold diffFrom
    simp [h1, h2, h3]
  | case5 left region a r1 b r2 h1 h2 h3 ih =>
    rw [ih]
    conv => rhs; simp only [spans_cons]; unfold diffFrom
    simp [h1, h2, h3]
  | case6 left region a r1 b r2 h1 h2 h3 region' h4 ih =>
    rw [ih, advance_eq]
    conv => rhs; simp only [spans_cons]; unfold diffFrom
    simp [h1, h2, h3, h4, region', newClipRect]
  | case7 left region a r1 b r2 h1 h2 h3 region' h4 ih =>
    rw [ih]
    conv => rhs; simp only [spans_cons]; unfold diffFrom
    simp [h1, h2, h3, h4, region', newClipRect]
  | case8 left region a r1 b r2 h1 h2 h3 region' ih =>
    rw [ih, advance_eq]
    conv => rhs; simp only [spans_cons]; unfold diffFrom
    simp only [h1, h2, h3, ↓reduceIte]
    rw [← emit_rows]
    rfl

theorem regionSubtractO_eq (region r1 r2 : List Rect) (top bottom : Int)
    : regionSubtractO region r1 r2 top bottom
        =
      region ++ rows top bottom (diff (spans r1) (spans r2)) := by
  unfold regionSubtractO
  cases r1 with
  | nil => simp [diff]
  | cons a r1 =>
    simp only [regionSubtractO_go_eq]
    rfl

end MiniGui
