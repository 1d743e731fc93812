import MiniGui.Gdi.ScanClip

namespace MiniGui

open List

variable {l before after : List Rect} {region : ClipRgn} {curBan : Option Nat} {y : Int} {k : Nat}

theorem exists_head (h : l ≠ []) : ∃ r, l.head? = some r :=
  ⟨_, head?_eq_some_head h⟩

theorem exists_getLast (h : l ≠ []) : ∃ r, l.getLast? = some r :=
  ⟨_, getLast?_eq_some_getLast h⟩

def BanOk (region : ClipRgn) (curBan : Option Nat) : Prop :=
  ∀ k, curBan = some k → BandStart region.rects (some k)

theorem banOk_none : BanOk region none := by
  intro k hk
  simp at hk

theorem BanOk.split (h : BanOk region curBan) (hne : region.rects ≠ [])
    : ∃ pre c post, region.rects = pre ++ c :: post ∧ pre.length = curBan.getD 0 ∧ Above pre (c :: post) := by
  cases curBan with
  | none =>
    cases hrects : region.rects with
    | nil => exact absurd hrects hne
    | cons c post => exact ⟨[], c, post, rfl, rfl, fun a ha => absurd ha not_mem_nil⟩
  | some k =>
    rcases h k rfl with ⟨pre, c, post, hl, hk, habove⟩
    exact ⟨pre, c, post, hl, hk, habove⟩

theorem covers_right (h : ∀ r ∈ before, r.bottom ≤ y) (x : Int)
    : Covers (before ++ after) x y ↔ Covers after x y := by
  rw [covers_append]
  have hnot := not_covers_of_bottom_le (x := x) h (Int.le_refl y)
  simp [hnot]

theorem covers_left (h : ∀ r ∈ after, y < r.top) (x : Int)
    : Covers (before ++ after) x y ↔ Covers before x y := by
  rw [covers_append]
  have hnot := not_covers_of_le_top (x := x) (y := y) (b := y + 1) (fun r hr => h r hr) (by omega)
  simp [hnot]

theorem forward_ban {pre post : List Rect} {c : Rect} (hb : Banded (pre ++ c :: post)) (habove : Above pre (c :: post))
    (hy : c.top ≤ y) (hlast : ∀ tail, (pre ++ c :: post).getLast? = some tail → y < tail.bottom)
    (hk : pre.length + ((c :: post).takeWhile (fun r => y ≥ r.bottom)).length = k)
    : BandStart (pre ++ c :: post) (some k)
        ∧ ∀ x, Covers (pre ++ c :: post) x y ↔ Covers (curBand ((pre ++ c :: post).drop k)) x y := by
  have hbc := (banded_append.mp hb).2.1
  generalize hpast : (c :: post).takeWhile (fun r => y ≥ r.bottom) = past at hk
  generalize hrest : (c :: post).dropWhile (fun r => y ≥ r.bottom) = rest
  have hsplit : past ++ rest = c :: post := by
    rw [← hpast, ← hrest]
    apply takeWhile_append_dropWhile
  have hpastle : ∀ r ∈ past, r.bottom ≤ y := by
    intro r hr
    rw [← hpast] at hr
    have himp := mem_takeWhile_imp hr
    simpa using himp
  have hprele : ∀ r ∈ pre, r.bottom ≤ y := by
    intro r hr
    have hrc := habove r hr c (by simp)
    omega
  cases hrestcases : rest with
  | nil =>
    rw [hrestcases, append_nil] at hsplit
    have hmem := getLast?_eq_some_getLast (l := c :: post) (by simp)
    have htail : (pre ++ c :: post).getLast? = (c :: post).getLast? := by
      rw [getLast?_append, hmem]
      rfl
    have hlt := hlast _ (htail.trans hmem)
    have hle := hpastle _ (by rw [hsplit]; exact getLast_mem (by simp))
    omega
  | cons d rest' =>
    rw [hrestcases] at hsplit hrest
    have hd : y < d.bottom := by
      have hnot := head?_dropWhile_not (fun r : Rect => decide (y ≥ r.bottom)) (c :: post)
      rw [hrest] at hnot
      simpa using hnot
    rw [← hsplit] at hbc
    have hbd := banded_append.mp hbc
    have hdrop : (pre ++ c :: post).drop k = d :: rest' := by
      rw [← hsplit, ← append_assoc, ← hk, ← length_append, drop_left]
    refine ⟨⟨pre ++ past, d, rest', ?_, ?_, ?_⟩, ?_⟩
    . rw [← hsplit]
      simp
    . rw [length_append]
      exact hk
    . intro a ha b hbm
      have hbtop := hbd.2.1.head_top_le hbm
      have hbbottom := hbd.2.1.head_bottom_le hbm
      rw [mem_append] at ha
      rcases ha with ha | ha
      . apply habove a ha
        rw [← hsplit, mem_append]
        exact .inr hbm
      rcases hbd.2.2 a ha b hbm with hsame | hbelow
      . have hale := hpastle a ha
        omega
      . exact hbelow
    intro x
    rw [hdrop, ← hsplit, ← append_assoc, covers_right]
    . conv => lhs; rw [← curBand_append_bandEnd (d :: rest')]
      apply covers_left
      intro r hr
      have htop := hbd.2.1.top_of_bandEnd hr
      omega
    intro r hr
    rw [mem_append] at hr
    rcases hr with hr | hr
    . exact hprele r hr
    . exact hpastle r hr

theorem drop_lastBandStart {tail : Rect} (hlast : l.getLast? = some tail)
    : l.drop (lastBandStart l) = l.rtakeWhile (fun r => r.top = tail.top) := by
  have hsplit : l = l.rdropWhile (fun r => decide (r.top = tail.top))
      ++ l.rtakeWhile (fun r => decide (r.top = tail.top)) := by
    simp
  have hlen := congrArg List.length hsplit
  rw [length_append] at hlen
  have hval : lastBandStart l = (l.rdropWhile (fun r => decide (r.top = tail.top))).length := by
    have hval' : lastBandStart l = l.length - (l.rtakeWhile (fun r => decide (r.top = tail.top))).length := by
      simp [lastBandStart, hlast, rtakeWhile]
    omega
  rw [hval]
  generalize l.rdropWhile (fun r => decide (r.top = tail.top)) = init at hsplit
  generalize l.rtakeWhile (fun r => decide (r.top = tail.top)) = band at hsplit
  rw [hsplit, drop_left]

theorem backward_ban (hb : Banded (before ++ after)) (hbefore : before ≠ [])
    (hlast : ∀ r, before.getLast? = some r → r.top ≤ y) (hafter : ∀ r ∈ after, y < r.top)
    : BandStart (before ++ after) (some (lastBandStart before))
        ∧ ∀ x, Covers (before ++ after) x y
            ↔ Covers (curBand ((before ++ after).drop (lastBandStart before))) x y := by
  have hbb := (banded_append.mp hb).1
  have hstart := lastBandStart_spec hbb hbefore
  have hle : ∀ r ∈ before, r.top ≤ y := by
    intro r hr
    have hl := hlast _ (getLast?_eq_some_getLast hbefore)
    rcases eq_nil_or_concat before with hnil | ⟨init, t, hconcat⟩
    . exact absurd hnil hbefore
    rw [concat_eq_append] at hconcat
    have ht := hlast t (by rw [hconcat]; simp)
    rw [hconcat] at hbb hr
    rw [mem_append, mem_singleton] at hr
    rcases hr with hr | hr
    . have hpos := hbb.1 r (by simp [hr])
      rcases (banded_append.mp hbb).2.2 r hr t (by simp) with hsame | habove
      . omega
      . omega
    . rw [hr]
      exact ht
  have habove : Above before after := by
    intro a ha b hbm
    have hatop := hle a ha
    have hbtop := hafter b hbm
    rcases (banded_append.mp hb).2.2 a ha b hbm with hsame | hbelow
    . omega
    . exact hbelow
  refine ⟨hstart.append habove, ?_⟩
  intro x
  rcases hstart with ⟨pre, e, post, hl, hk, hpre⟩
  have hdrop : before.drop (lastBandStart before) = e :: post := by
    rw [← hk]
    conv => lhs; rw [hl]
    rw [drop_left]
  have hsame : ∀ r ∈ e :: post, r.top = e.top := by
    have htake := drop_lastBandStart (getLast?_eq_some_getLast hbefore)
    rw [hdrop] at htake
    have htop : ∀ r ∈ e :: post, r.top = (before.getLast hbefore).top := by
      intro r hr
      rw [htake] at hr
      have himp := mem_rtakeWhile_imp hr
      simpa using himp
    intro r hr
    rw [htop r hr, htop e (by simp)]
  have hle' := hle e (by rw [hl]; simp)
  have hband : curBand ((before ++ after).drop (lastBandStart before)) = e :: post := by
    rw [drop_append_of_le_length (by rw [← hk, hl]; simp), hdrop]
    change takeWhile (fun c : Rect => decide (c.top = e.top)) ((e :: post) ++ after) = e :: post
    rw [takeWhile_append_of_pos (by simpa using hsame)]
    cases after with
    | nil => simp
    | cons d m =>
      have hd := hafter d (by simp)
      have hne : ¬d.top = e.top := by omega
      simp [hne]
  rw [covers_left hafter, hband, hl, covers_right]
  intro r hr
  have hre := hpre r hr e (by simp)
  omega

theorem head_top_le {head r : Rect} (hb : Banded l) (hhead : l.head? = some head) (hr : r ∈ l)
    : head.top ≤ r.top := by
  cases l with
  | nil => simp at hhead
  | cons a m =>
    simp only [head?_cons, Option.some.injEq] at hhead
    rw [← hhead]
    exact hb.head_top_le hr

theorem dcWhichRegionBan_spec (hb : Banded region.rects) (hne : region.rects ≠ []) (hcur : BanOk region curBan)
    : match dcWhichRegionBan region curBan y with
      | none => ∀ x, ¬Covers region.rects x y
      | some k => BandStart region.rects (some k) ∧ ∀ x, Covers region.rects x y ↔ Covers (banAt region k) x y := by
  rcases hcur.split hne with ⟨pre, c, post, hl, hpre, habove⟩
  unfold dcWhichRegionBan banAt
  cases hhead : region.rects.head? with
  | none => simp_all
  | some head =>
    cases hlast : region.rects.getLast? with
    | none => simp_all
    | some tail =>
      simp only
      by_cases hout : y ≥ tail.bottom ∨ y < head.top
      . have hcond : (decide (y ≥ tail.bottom) || decide (y < head.top)) = true := by simpa using hout
        rw [if_pos hcond]
        intro x
        rcases hout with hbelow | habove
        . apply not_covers_of_bottom_le _ hbelow
          intro r hr
          exact hb.bottom_le_getLast hlast hr
        . apply not_covers_of_le_top _ habove
          intro r hr
          exact head_top_le hb hhead hr
      have hcond : ¬(decide (y ≥ tail.bottom) || decide (y < head.top)) = true := by simpa using hout
      rw [if_neg hcond, ← hpre]
      have hget : region.rects.getD pre.length default = c := by simp [hl]
      rw [hget]
      by_cases hy : y < c.top
      . rw [if_pos hy]
        have htake : region.rects.take (pre.length + 1) = pre ++ [c] := by
          rw [hl, take_length_add_append]
          simp
        rw [htake]
        generalize hbefore : (pre ++ [c]).rdropWhile (fun c => decide (y < c.top)) = before
        generalize hskipped : (pre ++ [c]).rtakeWhile (fun c => decide (y < c.top)) = skipped
        have hsplit : pre ++ [c] = before ++ skipped := by
          rw [← hbefore, ← hskipped, rdropWhile_append_rtakeWhile]
        have hskippedlt : ∀ r ∈ skipped, y < r.top := by
          intro r hr
          rw [← hskipped] at hr
          have himp := mem_rtakeWhile_imp hr
          simpa using himp
        have hrects : region.rects = before ++ (skipped ++ post) := by
          rw [hl, ← append_assoc, ← hsplit]
          simp
        by_cases hnil : before = []
        . -- The head of the list stops the search at the latest.
          rw [hnil, nil_append] at hsplit
          have hheadlt := hskippedlt head (by
            rw [← hsplit]
            rw [hl] at hhead
            cases pre with
            | nil =>
              simp only [nil_append, head?_cons, Option.some.injEq] at hhead
              simp [hhead]
            | cons a m =>
              simp only [cons_append, head?_cons, Option.some.injEq] at hhead
              simp [hhead])
          omega
        rw [if_neg hnil]
        have hbackward := @backward_ban _ _ y (hrects ▸ hb) hnil (by
          intro r hr
          have hnot := rdropWhile_last_not (fun c : Rect => decide (y < c.top)) (pre ++ [c]) (by
            rw [hbefore]
            exact hnil)
          simp only [hbefore] at hnot
          rw [getLast?_eq_some_getLast hnil, Option.some.injEq] at hr
          rw [hr] at hnot
          simpa using hnot) (by
          intro r hr
          rw [mem_append] at hr
          rcases hr with hr | hr
          . exact hskippedlt r hr
          have hctop : c.top ≤ r.top := by
            rw [hl] at hb
            exact (banded_append.mp hb).2.1.head_top_le (by simp [hr])
          omega)
        rw [← hrects] at hbackward
        exact hbackward
      rw [if_neg hy]
      have hdrop : region.rects.drop pre.length = c :: post := by
        rw [hl, drop_left]
      rw [hdrop]
      have hforward := @forward_ban y _ pre post c (hl ▸ hb) habove (by omega) (by
        intro t ht
        rw [← hl, hlast] at ht
        simp only [Option.some.injEq] at ht
        rw [← ht]
        omega) rfl
      rw [← hl] at hforward
      rcases hforward.1 with ⟨before, e, more, hsplit, hk, habove'⟩
      have hlt : pre.length + ((c :: post).takeWhile (fun r => y ≥ r.bottom)).length < region.rects.length := by
        rw [← hk, hsplit]
        simp
      rw [if_pos hlt]
      exact hforward

end MiniGui
