import Mathlib

structure Span (α : Type) where
  lo : α
  hi : α
deriving DecidableEq, Repr

namespace Span

variable {α : Type} [LinearOrder α]

def Mem (s : Span α) (x : α) : Prop :=
  s.lo ≤ x ∧ x < s.hi

def Covers (l : List (Span α)) (x : α) : Prop :=
  ∃ s ∈ l, s.Mem x

def Gapped (l : List (Span α)) : Prop :=
  (∀ s ∈ l, s.lo < s.hi) ∧ l.Pairwise (fun s t => s.hi < t.lo)

def StartsAt (b : α) (l : List (Span α)) : Prop :=
  ∀ s ∈ l, b ≤ s.lo

@[simp]
theorem covers_nil (x : α) : Covers [] x ↔ False := by
  simp [Covers]

@[simp]
theorem covers_cons (s : Span α) (l : List (Span α)) (x : α)
    : Covers (s :: l) x ↔ s.Mem x ∨ Covers l x := by
  simp [Covers]

@[simp]
theorem gapped_nil : Gapped ([] : List (Span α)) := by
  simp [Gapped]

variable {l : List (Span α)} {s a : Span α} {b x : α}

theorem gapped_cons : Gapped (s :: l) ↔ s.lo < s.hi ∧ (∀ t ∈ l, s.hi < t.lo) ∧ Gapped l := by
  simp only [Gapped, List.mem_cons, forall_eq_or_imp, List.pairwise_cons]
  tauto

@[simp]
theorem startsAt_nil (b : α) : StartsAt b ([] : List (Span α)) := by
  simp [StartsAt]

@[simp]
theorem startsAt_cons : StartsAt b (s :: l) ↔ b ≤ s.lo ∧ StartsAt b l := by
  simp [StartsAt]

theorem StartsAt.mono {c : α} (h : StartsAt c l) (hbc : b ≤ c) : StartsAt b l := by
  intro s hs
  exact le_trans hbc (h s hs)

theorem Gapped.startsAt_tail (h : Gapped (s :: l)) : StartsAt s.hi l := by
  intro t ht
  exact le_of_lt ((gapped_cons.mp h).2.1 t ht)

theorem Gapped.startsAt_head (h : Gapped (s :: l)) : StartsAt s.lo (s :: l) := by
  rw [startsAt_cons]
  have hs := (gapped_cons.mp h).1
  exact ⟨le_refl _, h.startsAt_tail.mono (le_of_lt hs)⟩

theorem StartsAt.not_covers (h : StartsAt b l) (hx : x < b) : ¬Covers l x := by
  rintro ⟨s, hs, hmem⟩
  exact absurd (lt_of_le_of_lt (le_trans (h s hs) hmem.1) hx) (lt_irrefl _)

theorem Gapped.not_covers_tail (h : Gapped (s :: l)) (hx : x < s.hi) : ¬Covers l x :=
  h.startsAt_tail.not_covers hx

def emit (lo hi : α) (l : List (Span α)) : List (Span α) :=
  if lo < hi then ⟨lo, hi⟩ :: l else l

theorem covers_emit (lo hi : α) (l : List (Span α)) (x : α)
    : Covers (emit lo hi l) x ↔ (lo ≤ x ∧ x < hi) ∨ Covers l x := by
  unfold emit
  split
  . simp [Mem]
  . next h =>
    have : ¬(lo ≤ x ∧ x < hi) := fun hx => h (lt_of_le_of_lt hx.1 hx.2)
    simp [this]

theorem gapped_emit {lo hi : α} (hl : Gapped l) (hlo : ∀ t ∈ l, hi < t.lo)
    : Gapped (emit lo hi l) := by
  unfold emit
  split
  . next h => exact gapped_cons.mpr ⟨h, hlo, hl⟩
  . exact hl

theorem mem_emit {lo hi : α} {u : Span α} (hu : u ∈ emit lo hi l) : u.lo = lo ∨ u ∈ l := by
  unfold emit at hu
  split at hu
  . rcases List.mem_cons.mp hu with hu | hu
    . exact .inl (by rw [hu])
    . exact .inr hu
  . exact .inr hu

def inter : List (Span α) → List (Span α) → List (Span α)
  | a :: s, b :: t =>
    emit (max a.lo b.lo) (min a.hi b.hi) <|
      if a.hi < b.hi then
        inter s (b :: t)
      else if b.hi < a.hi then
        inter (a :: s) t
      else
        inter s t
  | _, _ => []
termination_by s t => s.length + t.length

theorem inter_lo_ge (s t : List (Span α))
    : ∀ u ∈ inter s t, (∃ a ∈ s, a.lo ≤ u.lo) ∧ (∃ b ∈ t, b.lo ≤ u.lo) := by
  fun_induction inter s t with
  | case1 a s b t ih1 ih2 ih3 =>
    intro u hu
    rcases mem_emit hu with hu | hu
    . rw [hu]
      exact ⟨⟨a, by simp, le_max_left _ _⟩, ⟨b, by simp, le_max_right _ _⟩⟩
    split at hu
    . have := ih1 u hu
      simp only [List.mem_cons, exists_eq_or_imp] at this ⊢
      tauto
    split at hu
    . have := ih2 u hu
      simp only [List.mem_cons, exists_eq_or_imp] at this ⊢
      tauto
    . have := ih3 u hu
      simp only [List.mem_cons, exists_eq_or_imp] at this ⊢
      tauto
  | case2 => simp

theorem gapped_inter (s t : List (Span α)) (hs : Gapped s) (ht : Gapped t)
    : Gapped (inter s t) := by
  fun_induction inter s t with
  | case1 a s b t ih1 ih2 ih3 =>
    have ha := gapped_cons.mp hs
    have hb := gapped_cons.mp ht
    apply gapped_emit
    . split
      . exact ih1 ha.2.2 ht
      . split
        . exact ih2 hs hb.2.2
        . exact ih3 ha.2.2 hb.2.2
    intro u hu
    rw [min_lt_iff]
    split at hu
    . obtain ⟨c, hc, hcu⟩ := (inter_lo_ge _ _ u hu).1
      exact .inl (lt_of_lt_of_le (ha.2.1 c hc) hcu)
    split at hu
    . obtain ⟨c, hc, hcu⟩ := (inter_lo_ge _ _ u hu).2
      exact .inr (lt_of_lt_of_le (hb.2.1 c hc) hcu)
    . obtain ⟨c, hc, hcu⟩ := (inter_lo_ge _ _ u hu).1
      exact .inl (lt_of_lt_of_le (ha.2.1 c hc) hcu)
  | case2 => simp

theorem mem_max_min (a b : Span α) (x : α)
    : (max a.lo b.lo ≤ x ∧ x < min a.hi b.hi) ↔ a.Mem x ∧ b.Mem x := by
  simp only [max_le_iff, lt_min_iff, Mem]
  tauto

theorem and_or_and_iff {p q r s : Prop} (hps : p → ¬s) (hqr : q → ¬r)
    : p ∧ q ∨ r ∧ s ↔ (p ∨ r) ∧ (q ∨ s) := by
  tauto

theorem and_or_and_or_iff {p q r s : Prop} (hps : p → ¬s)
    : p ∧ q ∨ r ∧ (q ∨ s) ↔ (p ∨ r) ∧ (q ∨ s) := by
  tauto

theorem covers_inter (s t : List (Span α)) (hs : Gapped s) (ht : Gapped t) (x : α)
    : Covers (inter s t) x ↔ Covers s x ∧ Covers t x := by
  fun_induction inter s t with
  | case1 a s b t ih1 ih2 ih3 =>
    have ha := gapped_cons.mp hs
    have hb := gapped_cons.mp ht
    -- A point of the span that ends first is not in the tail of the other list.
    have hat : a.hi ≤ b.hi → a.Mem x → ¬Covers t x := fun h hx =>
      ht.not_covers_tail (lt_of_lt_of_le hx.2 h)
    have hbs : b.hi ≤ a.hi → b.Mem x → ¬Covers s x := fun h hx =>
      hs.not_covers_tail (lt_of_lt_of_le hx.2 h)
    rw [covers_emit, mem_max_min]
    split
    . next h =>
      rw [ih1 ha.2.2 ht]
      simp only [covers_cons]
      exact and_or_and_or_iff (hat (le_of_lt h))
    rename_i h1
    split
    . next h2 =>
      rw [ih2 hs hb.2.2]
      simp only [covers_cons]
      have := and_or_and_or_iff (q := a.Mem x) (r := Covers t x) (hbs (le_of_lt h2))
      rw [and_comm (a := a.Mem x), and_comm (b := Covers t x), this, and_comm]
    rename_i h2
    rw [ih3 ha.2.2 hb.2.2]
    simp only [covers_cons]
    exact and_or_and_iff (hat (not_lt.mp h2)) (hbs (not_lt.mp h1))
  | case2 s t h =>
    cases s with
    | nil => simp
    | cons a s =>
      cases t with
      | nil => simp
      | cons b t => exact absurd rfl (h a s b t rfl)

def merge (cur a : Span α) : Option (Span α) × Span α :=
  if a.lo ≤ cur.hi then
    if cur.hi < a.hi then
      (none, ⟨cur.lo, a.hi⟩)
    else
      (none, cur)
  else
    (some cur, a)

def unionFrom (cur : Span α) : List (Span α) → List (Span α) → List (Span α)
  | a :: s, b :: t =>
    if a.lo < b.lo then
      (merge cur a).1.toList ++ unionFrom (merge cur a).2 s (b :: t)
    else
      (merge cur b).1.toList ++ unionFrom (merge cur b).2 (a :: s) t
  | a :: s, [] => (merge cur a).1.toList ++ unionFrom (merge cur a).2 s []
  | [], b :: t => (merge cur b).1.toList ++ unionFrom (merge cur b).2 [] t
  | [], [] => [cur]
termination_by s t => s.length + t.length

theorem merge_lo (cur a : Span α) (h : cur.lo ≤ a.lo)
    : cur.lo ≤ (merge cur a).2.lo ∧ (merge cur a).2.lo ≤ a.lo := by
  unfold merge
  split
  . split <;> simp [h]
  . simp [h]

theorem merge_valid (cur a : Span α) (hc : cur.lo < cur.hi) (ha : a.lo < a.hi) (h : cur.lo ≤ a.lo)
    : (merge cur a).2.lo < (merge cur a).2.hi := by
  unfold merge
  split
  . split
    . exact lt_of_le_of_lt h ha
    . exact hc
  . exact ha

theorem merge_closed (cur a c : Span α) (h : (merge cur a).1 = some c)
    : c = cur ∧ c.hi < a.lo ∧ (merge cur a).2 = a := by
  unfold merge at h ⊢
  split at h
  . split at h <;> simp at h
  rename_i hlt
  simp only [Option.some.injEq] at h
  subst h
  simp only [hlt, ↓reduceIte]
  exact ⟨trivial, not_le.mp hlt, trivial⟩

theorem covers_merge (cur a : Span α) (h : cur.lo ≤ a.lo) (x : α)
    : Covers (merge cur a).1.toList x ∨ (merge cur a).2.Mem x ↔ cur.Mem x ∨ a.Mem x := by
  unfold merge
  split
  . next h1 =>
    split
    . next h2 =>
      simp only [Option.toList_none, covers_nil, false_or, Mem]
      constructor
      . intro hx
        cases lt_or_ge x cur.hi with
        | inl hlt => exact .inl ⟨hx.1, hlt⟩
        | inr hge => exact .inr ⟨le_trans h1 hge, hx.2⟩
      intro hx
      rcases hx with hx | hx
      . exact ⟨hx.1, lt_trans hx.2 h2⟩
      . exact ⟨le_trans h hx.1, hx.2⟩
    rename_i h2
    simp only [Option.toList_none, covers_nil, false_or, Mem]
    constructor
    . exact .inl
    intro hx
    rcases hx with hx | hx
    . exact hx
    . exact ⟨le_trans h hx.1, lt_of_lt_of_le hx.2 (not_lt.mp h2)⟩
  . simp

theorem gapped_merge_append {cur : Span α} {l : List (Span α)} (hc : cur.lo < cur.hi)
    (hl : Gapped l) (hs : StartsAt (merge cur a).2.lo l)
    : Gapped ((merge cur a).1.toList ++ l) := by
  cases h : (merge cur a).1 with
  | none => simpa using hl
  | some c =>
    obtain ⟨hcur, hlt, heq⟩ := merge_closed cur a c h
    simp only [Option.toList_some, List.cons_append, List.nil_append]
    rw [gapped_cons]
    refine ⟨by rw [hcur]; exact hc, ?_, hl⟩
    intro t ht
    rw [heq] at hs
    exact lt_of_lt_of_le hlt (hs t ht)

theorem startsAt_merge_append {cur : Span α} {l : List (Span α)} (h : cur.lo ≤ a.lo)
    (hs : StartsAt (merge cur a).2.lo l) : StartsAt cur.lo ((merge cur a).1.toList ++ l) := by
  have hl := hs.mono (merge_lo cur a h).1
  cases hm : (merge cur a).1 with
  | none => simpa using hl
  | some c =>
    obtain ⟨hcur, _, _⟩ := merge_closed cur a c hm
    simp [hcur, hl]

theorem covers_append (l m : List (Span α)) (x : α)
    : Covers (l ++ m) x ↔ Covers l x ∨ Covers m x := by
  simp only [Covers, List.mem_append]
  grind

theorem unionFrom_spec (cur : Span α) (s t : List (Span α)) (hc : cur.lo < cur.hi)
    (hs : Gapped s) (ht : Gapped t) (hcs : StartsAt cur.lo s) (hct : StartsAt cur.lo t)
    : Gapped (unionFrom cur s t)
        ∧
      StartsAt cur.lo (unionFrom cur s t)
        ∧
      ∀ x, Covers (unionFrom cur s t) x ↔ cur.Mem x ∨ Covers s x ∨ Covers t x := by
  fun_induction unionFrom cur s t with
  | case1 cur a s b t hlt ih =>
    have ha := gapped_cons.mp hs
    rw [startsAt_cons] at hcs hct
    have hlo := merge_lo cur a hcs.1
    obtain ⟨ih1, ih2, ih3⟩ := ih
      (merge_valid cur a hc ha.1 hcs.1) ha.2.2 ht
      ((hs.startsAt_tail).mono (le_trans hlo.2 (le_of_lt ha.1)))
      (ht.startsAt_head.mono (le_trans hlo.2 (le_of_lt hlt)))
    refine ⟨gapped_merge_append hc ih1 ih2, startsAt_merge_append hcs.1 ih2, ?_⟩
    intro x
    rw [covers_append, ih3, ← or_assoc, covers_merge cur a hcs.1 x]
    simp only [covers_cons]
    tauto
  | case2 cur a s b t hlt ih =>
    have hb := gapped_cons.mp ht
    rw [startsAt_cons] at hcs hct
    have hlo := merge_lo cur b hct.1
    obtain ⟨ih1, ih2, ih3⟩ := ih
      (merge_valid cur b hc hb.1 hct.1) hs hb.2.2
      (hs.startsAt_head.mono (le_trans hlo.2 (not_lt.mp hlt)))
      ((ht.startsAt_tail).mono (le_trans hlo.2 (le_of_lt hb.1)))
    refine ⟨gapped_merge_append hc ih1 ih2, startsAt_merge_append hct.1 ih2, ?_⟩
    intro x
    rw [covers_append, ih3, ← or_assoc, covers_merge cur b hct.1 x]
    simp only [covers_cons]
    tauto
  | case3 cur a s ih =>
    have ha := gapped_cons.mp hs
    rw [startsAt_cons] at hcs
    have hlo := merge_lo cur a hcs.1
    obtain ⟨ih1, ih2, ih3⟩ := ih
      (merge_valid cur a hc ha.1 hcs.1) ha.2.2 ht
      ((hs.startsAt_tail).mono (le_trans hlo.2 (le_of_lt ha.1))) (startsAt_nil _)
    refine ⟨gapped_merge_append hc ih1 ih2, startsAt_merge_append hcs.1 ih2, ?_⟩
    intro x
    rw [covers_append, ih3, ← or_assoc, covers_merge cur a hcs.1 x]
    simp only [covers_cons]
    tauto
  | case4 cur b t ih =>
    have hb := gapped_cons.mp ht
    rw [startsAt_cons] at hct
    have hlo := merge_lo cur b hct.1
    obtain ⟨ih1, ih2, ih3⟩ := ih
      (merge_valid cur b hc hb.1 hct.1) hs hb.2.2 (startsAt_nil _)
      ((ht.startsAt_tail).mono (le_trans hlo.2 (le_of_lt hb.1)))
    refine ⟨gapped_merge_append hc ih1 ih2, startsAt_merge_append hct.1 ih2, ?_⟩
    intro x
    rw [covers_append, ih3, ← or_assoc, covers_merge cur b hct.1 x]
    simp only [covers_cons]
    tauto
  | case5 cur => simp [gapped_cons, hc]

def union : List (Span α) → List (Span α) → List (Span α)
  | a :: s, b :: t => if a.lo < b.lo then unionFrom a s (b :: t) else unionFrom b (a :: s) t
  | a :: s, [] => unionFrom a s []
  | [], b :: t => unionFrom b [] t
  | [], [] => []

theorem union_spec (s t : List (Span α)) (hs : Gapped s) (ht : Gapped t)
    : Gapped (union s t) ∧ ∀ x, Covers (union s t) x ↔ Covers s x ∨ Covers t x := by
  unfold union
  split
  . next a s b t =>
    have ha := gapped_cons.mp hs
    have hb := gapped_cons.mp ht
    split
    . next hlt =>
      obtain ⟨h1, _, h3⟩ := unionFrom_spec a s (b :: t) ha.1 ha.2.2 ht
        (hs.startsAt_tail.mono (le_of_lt ha.1)) (ht.startsAt_head.mono (le_of_lt hlt))
      refine ⟨h1, ?_⟩
      intro x
      rw [h3, covers_cons a, or_assoc]
    rename_i hlt
    obtain ⟨h1, _, h3⟩ := unionFrom_spec b (a :: s) t hb.1 hs hb.2.2
      (hs.startsAt_head.mono (not_lt.mp hlt)) (ht.startsAt_tail.mono (le_of_lt hb.1))
    refine ⟨h1, ?_⟩
    intro x
    rw [h3, covers_cons b]
    tauto
  . next a s =>
    have ha := gapped_cons.mp hs
    obtain ⟨h1, _, h3⟩ := unionFrom_spec a s [] ha.1 ha.2.2 ht
      (hs.startsAt_tail.mono (le_of_lt ha.1)) (startsAt_nil _)
    refine ⟨h1, ?_⟩
    intro x
    rw [h3, covers_cons a, or_assoc]
  . next b t =>
    have hb := gapped_cons.mp ht
    obtain ⟨h1, _, h3⟩ := unionFrom_spec b [] t hb.1 hs hb.2.2
      (startsAt_nil _) (ht.startsAt_tail.mono (le_of_lt hb.1))
    refine ⟨h1, ?_⟩
    intro x
    rw [h3, covers_cons b]
    tauto
  . simp

/--
The left end of the next span to be cut, which is where it starts; `left` when there is none.
-/
def nextLeft (left : α) : List (Span α) → α
  | [] => left
  | a :: _ => a.lo

def diffFrom (left : α) : List (Span α) → List (Span α) → List (Span α)
  | [], _ => []
  | a :: s, [] => ⟨left, a.hi⟩ :: diffFrom (nextLeft left s) s []
  | a :: s, b :: t =>
    if b.hi ≤ left then
      diffFrom left (a :: s) t
    else if b.lo ≤ left then
      if b.hi ≥ a.hi then
        diffFrom (nextLeft b.hi s) s (b :: t)
      else
        diffFrom b.hi (a :: s) t
    else if b.lo < a.hi then
      if b.hi ≥ a.hi then
        ⟨left, b.lo⟩ :: diffFrom (nextLeft b.hi s) s (b :: t)
      else
        ⟨left, b.lo⟩ :: diffFrom b.hi (a :: s) t
    else
      emit left a.hi (diffFrom (nextLeft left s) s (b :: t))
termination_by s t => s.length + t.length

def CutAt (left : α) : List (Span α) → Prop
  | [] => True
  | a :: _ => a.lo ≤ left ∧ left < a.hi

theorem Gapped.cutAt_nextLeft {s : List (Span α)} (left : α) (hs : Gapped s)
    : CutAt (nextLeft left s) s := by
  cases s with
  | nil => trivial
  | cons a s => exact ⟨le_refl _, (gapped_cons.mp hs).1⟩

def Ahead (left : α) (s : List (Span α)) (x : α) : Prop :=
  Covers s x ∧ left ≤ x

theorem ahead_cons {left : α} {s : List (Span α)} (hs : Gapped (a :: s))
    (hcut : CutAt left (a :: s)) : Ahead left (a :: s) x ↔ (left ≤ x ∧ x < a.hi) ∨ Covers s x := by
  have hstart : Covers s x → left ≤ x := by
    rintro ⟨c, hc, hx⟩
    exact le_trans (le_of_lt hcut.2) (le_trans (hs.startsAt_tail c hc) hx.1)
  have hlo : left ≤ x → a.lo ≤ x := le_trans hcut.1
  simp only [Ahead, covers_cons, Mem]
  tauto

theorem ahead_nextLeft (left : α) {s : List (Span α)} (hs : Gapped s)
    : Ahead (nextLeft left s) s x ↔ Covers s x := by
  cases s with
  | nil => simp [Ahead]
  | cons a s =>
    simp only [Ahead, nextLeft, and_iff_left_iff_imp]
    rintro ⟨c, hc, hx⟩
    exact le_trans (hs.startsAt_head c hc) hx.1

theorem startsAt_of_nextLeft {left l : α} {s r : List (Span α)}
    (hs : Gapped (a :: s)) (hleft : left < a.hi) (hnil : s = [] → r = [])
    (h : StartsAt (nextLeft l s) r) : StartsAt left r := by
  cases s with
  | nil => simp [hnil]
  | cons c s =>
    apply h.mono
    exact le_of_lt (lt_trans hleft ((gapped_cons.mp hs).2.1 c (by simp)))

theorem diffFrom_nil_left (left : α) (s t : List (Span α)) (hs : s = [])
    : diffFrom left s t = [] := by
  rw [hs]
  unfold diffFrom
  rfl

theorem diffFrom_startsAt (left : α) (s t : List (Span α)) (hs : Gapped s) (hcut : CutAt left s)
    : StartsAt left (diffFrom left s t) := by
  fun_induction diffFrom left s t with
  | case1 => simp
  | case2 left a s ih =>
    have h := (gapped_cons.mp hs).2.2
    have hrest := ih h (h.cutAt_nextLeft left)
    simp [startsAt_of_nextLeft hs hcut.2 (diffFrom_nil_left _ s _) hrest]
  | case3 left a s b t h ih => exact ih hs hcut
  | case4 left a s b t h1 h2 h3 ih =>
    have h := (gapped_cons.mp hs).2.2
    exact startsAt_of_nextLeft hs hcut.2 (diffFrom_nil_left _ s _) (ih h (h.cutAt_nextLeft _))
  | case5 left a s b t h1 h2 h3 ih =>
    have hleft := le_of_lt (not_le.mp h1)
    exact (ih hs ⟨le_trans hcut.1 hleft, not_le.mp h3⟩).mono hleft
  | case6 left a s b t h1 h2 h3 h4 ih =>
    have h := (gapped_cons.mp hs).2.2
    have hrest := ih h (h.cutAt_nextLeft b.hi)
    simp [startsAt_of_nextLeft hs hcut.2 (diffFrom_nil_left _ s _) hrest]
  | case7 left a s b t h1 h2 h3 h4 ih =>
    have hleft := le_of_lt (not_le.mp h1)
    have hrest := (ih hs ⟨le_trans hcut.1 hleft, not_le.mp h4⟩).mono hleft
    simp [hrest]
  | case8 left a s b t h1 h2 h3 ih =>
    have h := (gapped_cons.mp hs).2.2
    have hrest := startsAt_of_nextLeft hs hcut.2 (diffFrom_nil_left _ s _)
      (ih h (h.cutAt_nextLeft left))
    intro u hu
    rcases mem_emit hu with hu | hu
    . exact le_of_eq hu.symm
    . exact hrest u hu

theorem diffFrom_gap (left : α) {s t : List (Span α)} (hs : Gapped (a :: s))
    : ∀ u ∈ diffFrom (nextLeft left s) s t, a.hi < u.lo := by
  intro u hu
  cases s with
  | nil =>
    unfold diffFrom at hu
    simp at hu
  | cons c s =>
    have h := gapped_cons.mp hs
    have hu := diffFrom_startsAt _ _ t h.2.2 (h.2.2.cutAt_nextLeft left) u hu
    exact lt_of_lt_of_le (h.2.1 c (by simp)) hu

theorem gapped_diffFrom (left : α) (s t : List (Span α)) (hs : Gapped s) (ht : Gapped t)
    (hcut : CutAt left s) : Gapped (diffFrom left s t) := by
  fun_induction diffFrom left s t with
  | case1 => simp
  | case2 left a s ih =>
    have h := (gapped_cons.mp hs).2.2
    refine gapped_cons.mpr ⟨hcut.2, ?_, ih h ht (h.cutAt_nextLeft left)⟩
    intro u hu
    exact diffFrom_gap left hs u hu
  | case3 left a s b t h ih => exact ih hs (gapped_cons.mp ht).2.2 hcut
  | case4 left a s b t h1 h2 h3 ih =>
    have h := (gapped_cons.mp hs).2.2
    exact ih h ht (h.cutAt_nextLeft _)
  | case5 left a s b t h1 h2 h3 ih =>
    exact ih hs (gapped_cons.mp ht).2.2
      ⟨le_trans hcut.1 (le_of_lt (not_le.mp h1)), not_le.mp h3⟩
  | case6 left a s b t h1 h2 h3 h4 ih =>
    have h := (gapped_cons.mp hs).2.2
    refine gapped_cons.mpr ⟨not_le.mp h2, ?_, ih h ht (h.cutAt_nextLeft _)⟩
    intro u hu
    exact lt_trans h3 (diffFrom_gap b.hi hs u hu)
  | case7 left a s b t h1 h2 h3 h4 ih =>
    have hcut' : CutAt b.hi (a :: s) :=
      ⟨le_trans hcut.1 (le_of_lt (not_le.mp h1)), not_le.mp h4⟩
    have hb := gapped_cons.mp ht
    refine gapped_cons.mpr ⟨not_le.mp h2, ?_, ih hs hb.2.2 hcut'⟩
    intro u hu
    exact lt_of_lt_of_le hb.1 (diffFrom_startsAt b.hi _ t hs hcut' u hu)
  | case8 left a s b t h1 h2 h3 ih =>
    have h := (gapped_cons.mp hs).2.2
    exact gapped_emit (ih h ht (h.cutAt_nextLeft left)) (diffFrom_gap left hs)

theorem covers_diffFrom (left : α) (s t : List (Span α)) (hs : Gapped s) (ht : Gapped t)
    (hcut : CutAt left s) (x : α)
    : Covers (diffFrom left s t) x ↔ Ahead left s x ∧ ¬Covers t x := by
  fun_induction diffFrom left s t with
  | case1 => simp [Ahead]
  | case2 left a s ih =>
    have ha := gapped_cons.mp hs
    rw [covers_cons, ih ha.2.2 ht (ha.2.2.cutAt_nextLeft left), ahead_cons hs hcut,
      ahead_nextLeft _ ha.2.2]
    simp [Mem]
  | case3 left a s b t h ih =>
    have hb := gapped_cons.mp ht
    rw [ih hs hb.2.2 hcut]
    have : Ahead left (a :: s) x → ¬b.Mem x := fun hx hm =>
      absurd (lt_of_lt_of_le hm.2 h) (not_lt.mpr hx.2)
    simp only [covers_cons]
    tauto
  | case4 left a s b t h1 h2 h3 ih =>
    have ha := gapped_cons.mp hs
    rw [ih ha.2.2 ht (ha.2.2.cutAt_nextLeft _), ahead_nextLeft _ ha.2.2, ahead_cons hs hcut]
    have : left ≤ x ∧ x < a.hi → b.Mem x := fun hx =>
      ⟨le_trans h2 hx.1, lt_of_lt_of_le hx.2 h3⟩
    simp only [covers_cons]
    tauto
  | case5 left a s b t h1 h2 h3 ih =>
    have ha := gapped_cons.mp hs
    have hb := gapped_cons.mp ht
    have hcut' : CutAt b.hi (a :: s) := ⟨le_trans hcut.1 (le_of_lt (not_le.mp h1)), not_le.mp h3⟩
    rw [ih hs hb.2.2 hcut', ahead_cons hs hcut, ahead_cons hs hcut']
    have := hs.not_covers_tail (x := x)
    simp only [covers_cons, Mem]
    grind
  | case6 left a s b t h1 h2 h3 h4 ih =>
    have ha := gapped_cons.mp hs
    rw [covers_cons, ih ha.2.2 ht (ha.2.2.cutAt_nextLeft _), ahead_nextLeft _ ha.2.2,
      ahead_cons hs hcut]
    have := hs.not_covers_tail (x := x)
    have := ht.startsAt_head.not_covers (x := x)
    simp only [covers_cons, Mem] at this ⊢
    grind
  | case7 left a s b t h1 h2 h3 h4 ih =>
    have ha := gapped_cons.mp hs
    have hb := gapped_cons.mp ht
    have hcut' : CutAt b.hi (a :: s) := ⟨le_trans hcut.1 (le_of_lt (not_le.mp h1)), not_le.mp h4⟩
    rw [covers_cons, ih hs hb.2.2 hcut', ahead_cons hs hcut, ahead_cons hs hcut']
    have := hs.not_covers_tail (x := x)
    have := ht.startsAt_head.not_covers (x := x)
    simp only [covers_cons, Mem] at this ⊢
    grind
  | case8 left a s b t h1 h2 h3 ih =>
    have ha := gapped_cons.mp hs
    rw [covers_emit, ih ha.2.2 ht (ha.2.2.cutAt_nextLeft _), ahead_nextLeft _ ha.2.2,
      ahead_cons hs hcut]
    have := ht.startsAt_head.not_covers (x := x)
    grind

def diff : List (Span α) → List (Span α) → List (Span α)
  | [], _ => []
  | a :: s, t => diffFrom a.lo (a :: s) t

theorem diff_spec (s t : List (Span α)) (hs : Gapped s) (ht : Gapped t)
    : Gapped (diff s t) ∧ ∀ x, Covers (diff s t) x ↔ Covers s x ∧ ¬Covers t x := by
  cases s with
  | nil => simp [diff]
  | cons a s =>
    have hcut : CutAt a.lo (a :: s) := hs.cutAt_nextLeft a.lo
    constructor
    . exact gapped_diffFrom _ _ _ hs ht hcut
    intro x
    have : Ahead a.lo (a :: s) x ↔ Covers (a :: s) x := ahead_nextLeft a.lo hs
    rw [← this]
    exact covers_diffFrom _ _ _ hs ht hcut x

end Span
