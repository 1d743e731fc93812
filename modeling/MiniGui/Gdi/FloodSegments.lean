import MiniGui.Gdi.Flood

namespace MiniGui
open List (length_append length_set)

namespace Flood

namespace Segment

def Mem (s : Segment) (p : Int × Int) : Prop :=
  (s.left ≤ p.1 ∧ p.1 ≤ s.right) ∧ p.2 = s.y

def Apart (s t : Segment) : Prop :=
  ∀ p, ¬(s.Mem p ∧ t.Mem p)

end Segment

namespace FillEnv

variable (env : FillEnv)

def Good (p : Int × Int) : Prop :=
  env.dstRc.Mem p.1 p.2 ∧ env.equalPixel p.1 p.2 = true

def Adjacent (p q : Int × Int) : Prop :=
  (q.2 = p.2 ∧ (q.1 = p.1 + 1 ∨ q.1 = p.1 - 1)) ∨ (q.1 = p.1 ∧ (q.2 = p.2 + 1 ∨ q.2 = p.2 - 1))

def Comp (start p : Int × Int) : Prop :=
  env.Good start ∧ Relation.ReflTransGen (fun p q => Adjacent p q ∧ env.Good q) start p

structure Run (start : Int × Int) (s : Segment) : Prop where
  proper : s.left ≤ s.right
  comp : ∀ x, s.left ≤ x → x ≤ s.right → env.Comp start (x, s.y)
  left : ¬env.Good (s.left - 1, s.y)
  right : ¬env.Good (s.right + 1, s.y)

variable {env} {start : Int × Int} {p : Int × Int} {s : Segment}

theorem Comp.good (h : env.Comp start p) : env.Good p := by
  obtain ⟨hstart, hsteps⟩ := h
  cases hsteps with
  | refl => exact hstart
  | tail _ hlast => exact hlast.2

theorem Comp.step {p q : Int × Int} (h : env.Comp start p) (hadj : Adjacent p q) (hq : env.Good q) : env.Comp start q :=
  ⟨h.1, h.2.tail ⟨hadj, hq⟩⟩

theorem Comp.stretch {x y : Int} (h : env.Comp start (x, y)) {a b : Int} (hgood : ∀ u, a ≤ u → u ≤ b → env.Good (u, y))
    (hax : a ≤ x) (hxb : x ≤ b) {u : Int} (hau : a ≤ u) (hub : u ≤ b) : env.Comp start (u, y) := by
  have hright : ∀ k : Nat, x + k ≤ b → env.Comp start (x + k, y) := by
    intro k
    induction k with
    | zero =>
      intro _
      rw [Nat.cast_zero, add_zero]
      exact h
    | succ k ih =>
      intro hk
      rw [Nat.cast_succ] at hk ⊢
      exact (ih (by omega)).step (.inl ⟨rfl, .inl (by dsimp only; omega)⟩) (hgood _ (by omega) (by omega))
  have hleft : ∀ k : Nat, a ≤ x - k → env.Comp start (x - k, y) := by
    intro k
    induction k with
    | zero =>
      intro _
      rw [Nat.cast_zero, sub_zero]
      exact h
    | succ k ih =>
      intro hk
      rw [Nat.cast_succ] at hk ⊢
      exact (ih (by omega)).step (.inl ⟨rfl, .inr (by dsimp only; omega)⟩) (hgood _ (by omega) (by omega))
  rcases le_total x u with hle | hle
  . have hu := hright (u - x).toNat (by omega)
    rwa [show x + ((u - x).toNat : Int) = u by omega] at hu
  . have hu := hleft (x - u).toNat (by omega)
    rwa [show x - ((x - u).toNat : Int) = u by omega] at hu

theorem workLeft_spec (equalPixel : Int → Int → Bool) (y : Int) (pixels : Nat) (x : Int)
    : workLeft equalPixel y pixels x ≤ x ∧ x - pixels ≤ workLeft equalPixel y pixels x
      ∧ (∀ u, workLeft equalPixel y pixels x ≤ u → u < x → equalPixel u y = true)
      ∧ (x - pixels < workLeft equalPixel y pixels x → equalPixel (workLeft equalPixel y pixels x - 1) y = false) := by
  induction pixels generalizing x with
  | zero =>
    unfold workLeft
    refine ⟨le_refl _, by omega, ?_, ?_⟩
    . intro u h1 h2
      omega
    . intro h
      omega
  | succ pixels ih =>
    unfold workLeft
    split
    . next heq =>
      obtain ⟨h1, h2, h3, h4⟩ := ih (x - 1)
      refine ⟨by omega, by push_cast; omega, ?_, ?_⟩
      . intro u hu hux
        by_cases hlast : u = x - 1
        . rw [hlast]
          exact heq
        . exact h3 u hu (by omega)
      . intro h
        exact h4 (by push_cast at h; omega)
    rename_i hne
    refine ⟨le_refl _, by omega, ?_, ?_⟩
    . intro u h1 h2
      omega
    . intro _
      rwa [Bool.not_eq_true] at hne

theorem workRight_spec (equalPixel : Int → Int → Bool) (y : Int) (pixels : Nat) (x : Int)
    : x ≤ workRight equalPixel y pixels x ∧ workRight equalPixel y pixels x ≤ x + pixels
      ∧ (∀ u, x < u → u ≤ workRight equalPixel y pixels x → equalPixel u y = true)
      ∧ (workRight equalPixel y pixels x < x + pixels
        → equalPixel (workRight equalPixel y pixels x + 1) y = false) := by
  induction pixels generalizing x with
  | zero =>
    unfold workRight
    refine ⟨le_refl _, by omega, ?_, ?_⟩
    . intro u h1 h2
      omega
    . intro h
      omega
  | succ pixels ih =>
    unfold workRight
    split
    . next heq =>
      obtain ⟨h1, h2, h3, h4⟩ := ih (x + 1)
      refine ⟨by omega, by push_cast; omega, ?_, ?_⟩
      . intro u hu hux
        by_cases hlast : u = x + 1
        . rw [hlast]
          exact heq
        . exact h3 u (by omega) hux
      . intro h
        exact h4 (by push_cast at h; omega)
    rename_i hne
    refine ⟨le_refl _, by omega, ?_, ?_⟩
    . intro u h1 h2
      omega
    . intro _
      rwa [Bool.not_eq_true] at hne

theorem segmentAt_run {x y : Int} (h : env.Comp start (x, y))
    : env.Run start (env.segmentAt x y) ∧ (env.segmentAt x y).Mem (x, y) := by
  have hgood := h.good
  unfold Good Rect.Mem at hgood
  obtain ⟨hl1, hl2, hl3, hl4⟩ := workLeft_spec env.equalPixel y (x - env.dstRc.left).toNat x
  obtain ⟨hr1, hr2, hr3, hr4⟩ := workRight_spec env.equalPixel y (env.dstRc.right - 1 - x).toNat x
  unfold segmentAt Segment.Mem
  dsimp only
  generalize workLeft env.equalPixel y (x - env.dstRc.left).toNat x = left at *
  generalize workRight env.equalPixel y (env.dstRc.right - 1 - x).toNat x = right at *
  have hstretch : ∀ u, left ≤ u → u ≤ right → env.Good (u, y) := by
    intro u h1 h2
    unfold Good Rect.Mem
    refine ⟨by omega, ?_⟩
    rcases lt_trichotomy u x with hlt | heq | hgt
    . exact hl3 u h1 hlt
    . rw [heq]
      exact hgood.2
    . exact hr3 u hgt h2
  refine ⟨?_, ⟨by omega, rfl⟩⟩
  constructor
  case proper => exact le_trans hl1 hr1
  case comp =>
    intro u h1 h2
    exact h.stretch hstretch hl1 hr1 h1 h2
  case left =>
    rintro ⟨hmem, heq⟩
    unfold Rect.Mem at hmem
    dsimp only at hmem heq
    rw [hl4 (by omega)] at heq
    cases heq
  case right =>
    rintro ⟨hmem, heq⟩
    unfold Rect.Mem at hmem
    dsimp only at hmem heq
    rw [hr4 (by omega)] at heq
    cases heq

variable (hs : env.Run start s)
include hs

theorem Run.eq_of_mem {t : Segment} (ht : env.Run start t) (hps : s.Mem p)
    (hpt : t.Mem p) : s = t := by
  have hy : s.y = t.y := hps.2.symm.trans hpt.2
  have hleft : s.left = t.left := by
    by_contra hne
    rcases lt_or_gt_of_ne hne with hlt | hgt
    . apply ht.left
      rw [← hy]
      exact (hs.comp (t.left - 1) (by omega) (by have h1 := hpt.1; have h2 := hps.1; omega)).good
    . apply hs.left
      rw [hy]
      exact (ht.comp (s.left - 1) (by omega) (by have h1 := hpt.1; have h2 := hps.1; omega)).good
  have hright : s.right = t.right := by
    by_contra hne
    rcases lt_or_gt_of_ne hne with hlt | hgt
    . apply hs.right
      rw [hy]
      exact (ht.comp (s.right + 1) (by have h1 := hpt.1; have h2 := hps.1; omega) (by omega)).good
    . apply ht.right
      rw [← hy]
      exact (hs.comp (t.right + 1) (by have h1 := hpt.1; have h2 := hps.1; omega) (by omega)).good
  cases s
  cases t
  simp only [Segment.mk.injEq]
  exact ⟨hleft, hright, hy⟩

theorem Run.apart {t : Segment} (ht : env.Run start t) (hne : s ≠ t) : s.Apart t :=
  fun _ h => hne (hs.eq_of_mem ht h.1 h.2)

theorem Run.comp_of_mem (hp : s.Mem p) : env.Comp start p := by
  have hcomp := hs.comp p.1 hp.1.1 hp.1.2
  rw [← hp.2] at hcomp
  exact hcomp

end FillEnv

def Behind (rows : Nat) (row : Nat → Nat) (i j : Nat) : Prop :=
  i < j ∧ rows ≤ j ∧ row j = row i

structure Linked (rows : Nat) (lines : List FloodedLine) (row : Nat → Nat) : Prop where
  heads : rows ≤ lines.length
  head : ∀ i < rows, row i = i
  inside : ∀ i < lines.length, row i < rows
  next : ∀ (i : Nat) (p : FloodedLine), lines[i]? = some p →
    (p.next = 0 ∧ ∀ j, Behind rows row i j → ¬j < lines.length)
      ∨ ∃ j : Nat, p.next = (j : Int) ∧ Behind rows row i j ∧ j < lines.length ∧ ∀ k, Behind rows row i k → j ≤ k

variable {rows : Nat} {lines : List FloodedLine} {row : Nat → Nat} {i : Nat} {p : FloodedLine}

theorem lineAt_of_lt (h : lines[i]? = some p) : lineAt lines (i : Int) = .ok p := by
  unfold lineAt
  rw [if_neg (by omega), Int.toNat_natCast, h]

theorem Behind.trans {j k : Nat} (h : Behind rows row i j) (h' : Behind rows row j k) : Behind rows row i k :=
  ⟨h.1.trans h'.1, h'.2.1, h'.2.2.trans h.2.2⟩

theorem Behind.of_ne {j : Nat} (hij : i ≤ j) (hj : rows ≤ j) (hrow : row j = row i)
    : i = j ∨ Behind rows row i j := by
  rcases Nat.eq_or_lt_of_le hij with heq | hlt
  . exact .inl heq
  . exact .inr ⟨hlt, hj, hrow⟩

variable (h : Linked rows lines row)
include h

theorem Linked.findLine (left : Int) (rounds : Nat) (hi : i < lines.length)
    (hrounds : lines.length < rounds + i)
    : (∃ (j : Nat) (p : FloodedLine), lines[j]? = some p ∧ (j = i ∨ Behind rows row i j)
        ∧ p.lpos ≤ left ∧ left ≤ p.rpos ∧ findLine lines left rounds i = .ok (some (p.rpos + 2)))
      ∨ (findLine lines left rounds i = .ok none
        ∧ ∀ (j : Nat) (p : FloodedLine), lines[j]? = some p → (j = i ∨ Behind rows row i j) →
          ¬(p.lpos ≤ left ∧ left ≤ p.rpos)) := by
  induction rounds generalizing i with
  | zero => omega
  | succ rounds ih =>
    have hget : lines[i]? = some lines[i] := List.getElem?_eq_getElem hi
    unfold Flood.findLine
    rw [lineAt_of_lt hget]
    dsimp only
    by_cases hin : left ≥ lines[i].lpos ∧ left ≤ lines[i].rpos
    . rw [if_pos hin]
      exact .inl ⟨i, lines[i], hget, .inl rfl, hin.1, hin.2, rfl⟩
    rw [if_neg hin]
    rcases h.next i lines[i] hget with ⟨hnext, hlast⟩ | ⟨j, hnext, hbehind, hj, hfirst⟩
    . rw [if_pos hnext]
      refine .inr ⟨rfl, ?_⟩
      intro j p hp hji
      rcases hji with heq | hbehind
      . rw [heq, hget] at hp
        rw [← Option.some.inj hp]
        exact hin
      . exact absurd (List.getElem?_eq_some_iff.mp hp).1 (hlast j hbehind)
    have hlt := hbehind.1
    rw [if_neg (by omega), hnext]
    rcases ih hj (by omega) with ⟨k, p, hp, hk, h1, h2, heq⟩ | ⟨heq, hnone⟩
    . refine .inl ⟨k, p, hp, .inr ?_, h1, h2, heq⟩
      rcases hk with hkj | hkj
      . rw [hkj]
        exact hbehind
      . exact hbehind.trans hkj
    refine .inr ⟨heq, ?_⟩
    intro k p hp hk
    rcases hk with hki | hki
    . rw [hki, hget] at hp
      rw [← Option.some.inj hp]
      exact hin
    apply hnone k p hp
    rcases Behind.of_ne (hfirst k hki) hki.2.1 (hki.2.2.trans hbehind.2.2.symm) with heq | hb
    . exact .inl heq.symm
    . exact .inr hb

theorem Linked.lastLine (rounds : Nat) (hi : i < lines.length) (hrounds : lines.length < rounds + i)
    : ∃ (j : Nat) (p : FloodedLine), lastLine lines rounds i = .ok (j : Int) ∧ lines[j]? = some p ∧ p.next = 0
      ∧ row j = row i := by
  induction rounds generalizing i with
  | zero => omega
  | succ rounds ih =>
    have hget : lines[i]? = some lines[i] := List.getElem?_eq_getElem hi
    unfold Flood.lastLine
    rw [lineAt_of_lt hget]
    dsimp only
    rcases h.next i lines[i] hget with ⟨hnext, hlast⟩ | ⟨j, hnext, hbehind, hj, _⟩
    . rw [if_neg (not_not.mpr hnext)]
      exact ⟨i, lines[i], rfl, hget, hnext, rfl⟩
    have hlt := hbehind.1
    rw [if_pos (by omega), hnext]
    obtain ⟨k, p, heq, hp, hzero, hrow⟩ := ih hj (by omega)
    exact ⟨k, p, heq, hp, hzero, hrow.trans hbehind.2.2⟩

theorem Linked.set {q : FloodedLine} (hp : lines[i]? = some p)
    (hnext : q.next = p.next) : Linked rows (lines.set i q) row := by
  constructor
  case heads =>
    rw [length_set]
    exact h.heads
  case head => exact h.head
  case inside =>
    rw [length_set]
    exact h.inside
  case next =>
    intro j r hr
    rw [length_set]
    rw [List.getElem?_set] at hr
    split at hr
    next heq =>
      split at hr
      next =>
        rw [← Option.some.inj hr, ← heq, hnext]
        exact h.next i p hp
      next => cases hr
    next => exact h.next j r hr

def rowAfter (row : Nat → Nat) (count r : Nat) (i : Nat) : Nat :=
  if i = count then r else row i

theorem Linked.append {c : Nat} {q : FloodedLine} (hp : lines[c]? = some p)
    (hlast : p.next = 0) (hq : q.next = 0)
    : Linked rows (lines.set c { p with next := (lines.length : Int) } ++ [q]) (rowAfter row lines.length (row c)) := by
  have hc : c < lines.length := (List.getElem?_eq_some_iff.mp hp).1
  have hheads := h.heads
  have hold : ∀ i < lines.length, rowAfter row lines.length (row c) i = row i := by
    intro i hi
    exact if_neg (by omega)
  have hnew : rowAfter row lines.length (row c) lines.length = row c := if_pos rfl
  have hend : ∀ j, Behind rows row c j → ¬j < lines.length := by
    rcases h.next c p hp with ⟨_, hnone⟩ | ⟨j, hnext, hbehind, _⟩
    . exact hnone
    . have hlt := hbehind.1
      omega
  constructor
  case heads =>
    rw [length_append, length_set]
    omega
  case head =>
    intro i hi
    rw [hold i (by omega)]
    exact h.head i hi
  case inside =>
    intro i hi
    rw [length_append, length_set, List.length_singleton] at hi
    by_cases heq : i = lines.length
    . rw [heq, hnew]
      exact h.inside c hc
    . rw [hold i (by omega)]
      exact h.inside i (by omega)
  case next =>
    intro i r hr
    rw [length_append, length_set, List.length_singleton]
    have hi := (List.getElem?_eq_some_iff.mp hr).1
    rw [length_append, length_set, List.length_singleton] at hi
    by_cases hlen : i = lines.length
    . rw [hlen, List.getElem?_append_right (by rw [length_set]), length_set, Nat.sub_self] at hr
      rw [← Option.some.inj hr]
      refine .inl ⟨hq, ?_⟩
      intro j hj
      have hlt := hj.1
      omega
    have hilt : i < lines.length := by omega
    rw [List.getElem?_append_left (by rw [length_set]; exact hilt), List.getElem?_set] at hr
    by_cases hic : c = i
    . rw [if_pos hic, if_pos hc] at hr
      rw [← Option.some.inj hr, ← hic]
      refine .inr ⟨lines.length, rfl, ⟨hc, hheads, ?_⟩, by omega, ?_⟩
      . rw [hnew, hold c hc]
      intro k hk
      by_contra hlt
      apply hend k _ (by omega)
      refine ⟨hk.1, hk.2.1, ?_⟩
      have hrow := hk.2.2
      rwa [hold k (by omega), hold c hc] at hrow
    rw [if_neg hic] at hr
    have hback : ∀ k, k < lines.length → Behind rows (rowAfter row lines.length (row c)) i k
        → Behind rows row i k := by
      intro k hk hbehind
      refine ⟨hbehind.1, hbehind.2.1, ?_⟩
      have hrow := hbehind.2.2
      rwa [hold k hk, hold i hilt] at hrow
    rcases h.next i r hr with ⟨hzero, hnone⟩ | ⟨j, hnext, hbehind, hj, hfirst⟩
    . refine .inl ⟨hzero, ?_⟩
      intro j hj hlt
      by_cases hjlen : j = lines.length
      . -- The row of `c` has one last line only.
        have hrow := hj.2.2
        rw [hjlen, hnew, hold i hilt] at hrow
        rcases lt_or_gt_of_ne hic with hci | hci
        . by_cases hhead : rows ≤ i
          . exact hend i ⟨hci, hhead, hrow.symm⟩ hilt
          . have h1 := h.head i (by omega)
            have h2 := h.head c (by omega)
            omega
        by_cases hhead : rows ≤ c
        . exact hnone c ⟨hci, hhead, hrow⟩ hc
        . have h1 := h.head i (by omega)
          have h2 := h.head c (by omega)
          omega
      . exact hnone j (hback j (by omega) hj) (by omega)
    refine .inr ⟨j, hnext, ⟨hbehind.1, hbehind.2.1, ?_⟩, by omega, ?_⟩
    . rw [hold j hj, hold i hilt]
      exact hbehind.2.2
    intro k hk
    by_cases hklt : k < lines.length
    . exact hfirst k (hback k hklt hk)
    . omega

end Flood

end MiniGui
