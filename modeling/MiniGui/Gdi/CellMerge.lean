import MiniGui.Gdi.CellLists

namespace MiniGui.Cells

open Function List

open DList Chain

variable {mem0 : Mem} {keep : Set Nat} {d : Dst} {l : List Nat} {rects : List Rect}

theorem mergeInto_building {l1 l2 : List Nat} {p c : Nat} (h : Building mem0 keep d (l1 ++ c :: l2) rects)
    (hp : p ∈ l1) : Building mem0 keep (mergeInto d p c) (l1 ++ l2)
        ((l1 ++ l2).map (Function.update d.mem.rc p { d.mem.rc p with bottom := (d.mem.rc c).bottom })) := by
  have hvalid := h.rep.valid
  have hprev := hvalid.prev_eq
  have hnext := hvalid.next_eq
  have hnodup := hvalid.nodup
  have hc : c ∉ l1 ++ l2 := by
    rw [nodup_middle, nodup_cons] at hnodup
    exact hnodup.1
  have hl1 : l1 ≠ [] := ne_nil_of_mem hp
  obtain ⟨init, y, hconcat⟩ : ∃ init y, l1 = init ++ [y] := by
    rcases eq_nil_or_concat l1 with hnil | ⟨init, y, hconcat⟩
    . contradiction
    . exact ⟨init, y, by rw [hconcat, concat_eq_append]⟩
  have hprevy : d.mem.prev c = y ∧ y ≠ 0 := by
    rw [hconcat, getLast?_concat] at hprev
    exact link_eq_some.mp hprev
  have hprevne : d.mem.prev c ≠ 0 := by
    rw [hprevy.1]
    exact hprevy.2
  have hy : y ∈ l1 := by
    rw [hconcat]
    simp
  have hhead : d.head ≠ c := by
    obtain ⟨a, t, hl⟩ := exists_cons_of_ne_nil hl1
    have hrep := h.rep
    rw [hl, cons_append] at hrep
    rw [hrep.head_eq]
    rintro rfl
    apply hc
    rw [hl]
    simp
  constructor
  . constructor
    . have hremove := hvalid.remove rfl rfl
      rw [if_neg hhead] at hremove
      unfold mergeInto setRc freeClipRect
      dsimp only
      rw [if_pos hprevne, if_pos hprevne]
      rw [if_neg hprevne] at hremove
      by_cases hnil : d.mem.next c = 0
      . rw [if_neg (fun hne => hne hnil)]
        rw [if_pos hnil] at hremove
        exact hremove
      . rw [if_pos hnil]
        rw [if_neg hnil] at hremove
        exact hremove
    . unfold mergeInto setRc freeClipRect
      dsimp only
      have htail := h.rep.tail_eq
      cases l2 with
      | nil =>
        rw [head?_nil, link_eq_none] at hnext
        rw [if_neg (fun hne => hne hnext), append_nil, hconcat, getLast?_concat]
        exact hprevy.1
      | cons z l2 =>
        rw [head?_cons, link_eq_some] at hnext
        have hz : d.mem.next c ≠ 0 := by
          rw [hnext.1]
          exact hnext.2
        rw [if_pos hz, htail]
        congr 1
        rw [getLast?_append_of_ne_nil _ (by simp), getLast?_append_of_ne_nil _ (by simp),
          getLast?_cons_cons]
    intro a ha
    show a ∈ d.mem.used.erase c
    rw [Finset.mem_erase]
    constructor
    . rintro rfl
      exact hc ha
    apply h.rep.used
    rw [mem_append] at ha
    rw [mem_append, mem_cons]
    tauto
  . rfl
  . intro a ha
    apply h.apart
    rw [mem_append] at ha
    rw [mem_append, mem_cons]
    tauto
  intro a ha
  have hkept := h.kept a ha
  have hnot : ∀ b ∈ l1 ++ c :: l2, a ≠ b := by
    rintro b hb rfl
    exact h.apart a hb ha
  have hac : a ≠ c := hnot c (by simp)
  have hap : a ≠ p := hnot p (mem_append_left _ hp)
  have hay : a ≠ y := hnot y (mem_append_left _ hy)
  unfold mergeInto setRc freeClipRect
  dsimp only
  refine ⟨Finset.mem_erase.mpr ⟨hac, hkept.1⟩, ?_, ?_, ?_⟩
  . rw [update_of_ne hap]
    exact hkept.2.1
  . rw [if_pos hprevne, hprevy.1, update_of_ne hay]
    exact hkept.2.2.1
  split
  next hne =>
    rw [update_of_ne]
    . exact hkept.2.2.2
    cases l2 with
    | nil =>
      rw [head?_nil, link_eq_none] at hnext
      exact absurd hnext hne
    | cons z l2 =>
      rw [head?_cons, link_eq_some] at hnext
      rw [hnext.1]
      exact hnot z (by simp)
  next => exact hkept.2.2.2

theorem mergeBand_building {first prevRects curRects last : List Nat}
    (h : Building mem0 keep d (first ++ prevRects ++ curRects ++ last) rects)
    (hlen : prevRects.length = curRects.length)
    : Building mem0 keep (mergeBand d prevRects curRects) (first ++ prevRects ++ last)
        (first.map d.mem.rc ++
          (prevRects.map d.mem.rc).zipWith (fun p c => { p with bottom := c.bottom }) (curRects.map d.mem.rc)
          ++ last.map d.mem.rc) := by
  induction prevRects generalizing first curRects d rects with
  | nil =>
    have hnil : curRects = [] := eq_nil_of_length_eq_zero hlen.symm
    rw [hnil] at h ⊢
    have hrects := h.rects_eq
    rw [append_nil, append_nil, map_append] at hrects
    rw [append_nil] at h
    simp only [mergeBand, map_nil, zipWith_nil_left, append_nil]
    rw [hrects]
    rw [append_nil] at h
    exact h
  | cons p prevRects ih =>
    cases curRects with
    | nil => contradiction
    | cons c curRects =>
      have hsplit : first ++ p :: prevRects ++ c :: curRects ++ last =
          (first ++ p :: prevRects) ++ c :: (curRects ++ last) := by
        simp
      have hnodup := h.rep.valid.nodup
      rw [hsplit] at h hnodup
      have hmerge := mergeInto_building h (p := p) (by simp)
      have hmove : (first ++ p :: prevRects) ++ (curRects ++ last) =
          (first ++ [p]) ++ prevRects ++ curRects ++ last := by
        simp
      rw [hmove] at hmerge
      have hnext := ih hmerge (by simpa using hlen)
      have hrc : (mergeInto d p c).mem.rc =
          Function.update d.mem.rc p { d.mem.rc p with bottom := (d.mem.rc c).bottom } := rfl
      have hsame : ∀ m : List Nat, p ∉ m → m.map (mergeInto d p c).mem.rc = m.map d.mem.rc := by
        intro m hm
        apply map_congr_left
        intro a ha
        rw [hrc, update_of_ne]
        rintro rfl
        exact hm ha
      have hparts : p ∉ first ∧ p ∉ prevRects ∧ p ∉ curRects ∧ p ∉ last := by
        simp only [append_assoc, cons_append] at hnodup
        rw [nodup_middle, nodup_cons] at hnodup
        have hout := hnodup.1
        simp only [mem_append, mem_cons, not_or] at hout
        exact ⟨hout.1, hout.2.1, hout.2.2.2.1, hout.2.2.2.2⟩
      rw [hsame prevRects hparts.2.1, hsame curRects hparts.2.2.1, hsame last hparts.2.2.2, map_append,
        hsame first hparts.1, map_singleton, hrc, update_self] at hnext
      rw [mergeBand]
      simp only [append_assoc, map_cons, zipWith_cons_cons, cons_append] at hnext ⊢
      exact hnext

def AtPos (l : List Nat) (a : Nat) : Option Nat → Prop
  | none => a = 0
  | some i => l[i]? = some a

theorem lastBandStart_walk {mem : Mem} {head tail a n : Nat} {l1 l2 : List Nat} {top : Int}
    (h : Rep mem head tail (l1 ++ a :: l2)) (hn : l1.length ≤ n) (htop : (mem.rc a).top = top)
    : (l1 ++ a :: l2)[l1.length - (l1.reverse.takeWhile (fun c => (mem.rc c).top = top)).length]?
        = some (lastBandStart mem n a) := by
  have hprev := h.valid.prev_eq
  induction n generalizing l1 l2 a with
  | zero =>
    have hnil : l1 = [] := eq_nil_of_length_eq_zero (by omega)
    rw [hnil]
    rfl
  | succ n ih =>
    rcases eq_nil_or_concat l1 with hnil | ⟨init, y, hconcat⟩
    . rw [hnil, getLast?_nil, link_eq_none] at hprev
      rw [hnil, lastBandStart, if_neg (fun hand => hand.1 hprev)]
      rfl
    rw [concat_eq_append] at hconcat
    rw [hconcat, getLast?_concat, link_eq_some] at hprev
    rw [hconcat] at h hn ⊢
    rw [length_append, length_singleton] at hn
    rw [lastBandStart, hprev.1, htop]
    by_cases hy : (mem.rc y).top = top
    . rw [if_pos ⟨hprev.2, hy⟩]
      have hmove : init ++ [y] ++ a :: l2 = init ++ y :: (a :: l2) := by
        simp
      rw [hmove] at h ⊢
      have hwalk := ih h (by omega) hy h.valid.prev_eq
      rw [← hwalk, reverse_append, reverse_singleton, singleton_append,
        takeWhile_cons_of_pos (by simpa using hy), length_append, length_singleton,
        length_cons, Nat.add_sub_add_right]
    . rw [if_neg (fun hand => hy hand.2), reverse_append, reverse_singleton, singleton_append,
        takeWhile_cons_of_neg (by simpa using hy), List.length_nil, Nat.sub_zero,
        getElem?_append_right (Nat.le_refl _), Nat.sub_self]
      rfl

theorem lastBandStart_building (h : Building mem0 keep d l rects) (hl : l ≠ [])
    : l[MiniGui.lastBandStart rects]? = some (lastBandStart d.mem d.mem.used.card d.tail) := by
  have hlen := h.rep.length_le
  have htail := h.rep.tail_eq
  rcases eq_nil_or_concat l with hnil | ⟨init, y, hconcat⟩
  . contradiction
  rw [concat_eq_append] at hconcat
  rw [hconcat, getLast?_concat, Option.getD_some] at htail
  rw [← htail] at hconcat
  have hrep := h.rep
  rw [hconcat] at hrep hlen
  rw [length_append] at hlen
  have hwalk := lastBandStart_walk (n := d.mem.used.card) hrep (by omega) rfl
  rw [← hwalk, hconcat, ← h.rects_eq, hconcat]
  congr 1
  unfold MiniGui.lastBandStart
  rw [map_append, map_singleton, getLast?_concat]
  dsimp only
  rw [reverse_append, reverse_singleton, singleton_append, takeWhile_cons_of_pos (by simp),
    ← map_reverse, takeWhile_map, length_cons, length_map, length_append,
    length_map, length_singleton, Nat.add_sub_add_right]
  rfl

theorem top_of_lastBandStart {rects : List Rect} {i : Nat} {r : Rect} (hi : MiniGui.lastBandStart rects ≤ i)
    (hr : rects[i]? = some r) : ∃ tail, rects.getLast? = some tail ∧ r.top = tail.top := by
  unfold MiniGui.lastBandStart at hi
  cases hlast : rects.getLast? with
  | none =>
    rw [getLast?_eq_none_iff] at hlast
    rw [hlast] at hr
    simp at hr
  | some tail =>
    rw [hlast] at hi
    dsimp only at hi
    refine ⟨tail, rfl, ?_⟩
    have hlt : i < rects.length := (List.getElem?_eq_some_iff.mp hr).1
    have hrev : rects.reverse[rects.length - 1 - i]? = some r := by
      rw [getElem?_reverse (by omega)]
      rw [← hr]
      congr 1
      omega
    obtain ⟨t, ht⟩ := takeWhile_prefix (fun r : Rect => decide (r.top = tail.top)) (l := rects.reverse)
    have hlen := congrArg List.length ht
    rw [length_append, length_reverse] at hlen
    rw [← ht, getElem?_append_left (by omega)] at hrev
    have htop := mem_takeWhile_imp (mem_of_getElem? hrev)
    simpa using htop

theorem regionCoalesce_split (F P C : List Rect) {pp cp : Option Nat} (hp : pp.getD 0 = F.length)
    (hc : cp.getD 0 = F.length + P.length) (hP : P ≠ [])
    : MiniGui.regionCoalesce (F ++ P ++ C) pp cp
        =
      let cur := C.takeWhile fun r => r.top = (C.headD default).top
      let last := C.dropWhile fun r => r.top = (C.headD default).top
      let newStart := if last ≠ [] then MiniGui.lastBandStart (F ++ P ++ C) else F.length + P.length
      if cur.length = P.length ∧ cur.length ≠ 0 ∧ (P.headD default).bottom = (cur.headD default).top
          ∧ P.map (fun r => (r.left, r.right)) = cur.map (fun r => (r.left, r.right)) then
        (F ++ P.zipWith (fun p c => { p with bottom := c.bottom }) cur ++ last,
          if last ≠ [] then newStart - cur.length else F.length)
      else
        (F ++ P ++ C, newStart) := by
  have hpos := length_pos_iff.mpr hP
  have hne : F.length ≠ F.length + P.length := by omega
  have hdrop : (F ++ P ++ C).drop (F.length + P.length) = C := by
    rw [← length_append, drop_left]
  have hdropF : (F ++ P ++ C).drop F.length = P ++ C := by
    rw [append_assoc, drop_left]
  have htakeF : (F ++ P ++ C).take F.length = F := by
    rw [append_assoc, take_left]
  have hsplit := takeWhile_append_dropWhile (p := fun r : Rect => decide (r.top = (C.headD default).top)) (l := C)
  unfold MiniGui.regionCoalesce
  dsimp only
  rw [hp, hc, if_neg hne, hdrop, hdropF, htakeF, Nat.add_sub_cancel_left, take_left]
  generalize C.takeWhile (fun r => decide (r.top = (C.headD default).top)) = cur at hsplit ⊢
  generalize C.dropWhile (fun r => decide (r.top = (C.headD default).top)) = last at hsplit ⊢
  have htake : C.take cur.length = cur := by
    rw [← hsplit, take_left]
  have hlast : (F ++ P ++ C).drop (F.length + P.length + cur.length) = last := by
    rw [← drop_drop, hdrop, ← hsplit, drop_left]
  have hmore : F.length + P.length + cur.length < (F ++ P ++ C).length ↔ last ≠ [] := by
    rw [length_append, length_append, ← hsplit, length_append, ← length_pos_iff]
    omega
  rw [htake, hlast]
  simp only [hmore]

theorem split_at {l : List Nat} {i a : Nat} (h : l[i]? = some a)
    : l = l.take i ++ a :: l.drop (i + 1) ∧ (l.take i).length = i := by
  rw [List.getElem?_eq_some_iff] at h
  obtain ⟨hlt, heq⟩ := h
  constructor
  . rw [← heq, getElem_cons_drop, take_append_drop]
  . rw [length_take]
    omega

theorem split_between {l : List Nat} {i j a b : Nat} (hi : l[i]? = some a) (hj : l[j]? = some b) (hlt : i < j)
    : ∃ first between rest, l = first ++ a :: between ++ b :: rest ∧ first.length = i
        ∧ first.length + (a :: between).length = j := by
  obtain ⟨hl, hlen⟩ := split_at hj
  have hi' : (l.take j)[i]? = some a := by
    rw [getElem?_take_of_lt hlt]
    exact hi
  obtain ⟨htake, hlen'⟩ := split_at hi'
  refine ⟨(l.take j).take i, (l.take j).drop (i + 1), l.drop (j + 1), ?_, hlen', ?_⟩
  . rw [← htake]
    exact hl
  . rw [← length_append, ← htake]
    exact hlen

theorem AtPos.resolve {a : Nat} {p : Option Nat} (h : Rep d.mem d.head d.tail l) (hl : l ≠ []) (ha : AtPos l a p)
    : l[p.getD 0]? = some (if a = 0 then d.head else a) := by
  cases p with
  | none =>
    obtain ⟨x, t, hxt⟩ := exists_cons_of_ne_nil hl
    rw [hxt] at h
    have hnull : a = 0 := ha
    rw [if_pos hnull, h.head_eq, hxt]
    rfl
  | some i =>
    have hne := h.valid.ne_nil (mem_of_getElem? ha)
    rw [if_neg hne]
    exact ha

theorem regionCoalesce_cells {F ps cs : List Nat} {p c a b : Nat} (h : Building mem0 keep d (F ++ p :: ps ++ c :: cs) rects)
    (hp : (if a = 0 then d.head else a) = p) (hc : (if b = 0 then d.head else b) = c)
    : regionCoalesce d a b
        =
      let cur := (c :: cs).takeWhile fun a => (d.mem.rc a).top = (d.mem.rc c).top
      let last := (c :: cs).dropWhile fun a => (d.mem.rc a).top = (d.mem.rc c).top
      let newStart := if last ≠ [] then lastBandStart d.mem d.mem.used.card d.tail else c
      if cur.length = (p :: ps).length ∧ cur.length ≠ 0 ∧ (d.mem.rc p).bottom = (d.mem.rc c).top
          ∧ (p :: ps).map (fun a => ((d.mem.rc a).left, (d.mem.rc a).right))
            = cur.map (fun a => ((d.mem.rc a).left, (d.mem.rc a).right)) then
        (mergeBand d (p :: ps) cur, if last ≠ [] then newStart else p)
      else
        (d, newStart) := by
  have hnodup := h.rep.valid.nodup
  have hchainc := h.rep.chain_eq
  have hmove : F ++ p :: ps ++ c :: cs = F ++ p :: (ps ++ c :: cs) := by
    simp
  have hrep := h.rep
  rw [hmove] at hrep
  have hchainp := hrep.chain_eq
  have hout : ∀ x ∈ p :: ps, x ≠ c := by
    intro x hx
    rw [nodup_append] at hnodup
    exact hnodup.2.2 x (mem_append_right _ hx) c (by simp)
  have hprevs : (p :: (ps ++ c :: cs)).takeWhile (fun x => decide (x ≠ c)) = p :: ps := by
    rw [← cons_append, takeWhile_append_of_pos]
    . rw [takeWhile_cons_of_neg (by simp), append_nil]
    . intro x hx
      simpa using hout x hx
  have hsplit := takeWhile_append_dropWhile (p := fun a => decide ((d.mem.rc a).top = (d.mem.rc c).top)) (l := c :: cs)
  unfold regionCoalesce
  dsimp only
  rw [hp, hc, if_neg (hout p (by simp)), hchainc, hchainp, hprevs]
  generalize (c :: cs).takeWhile (fun a => decide ((d.mem.rc a).top = (d.mem.rc c).top)) = cur at hsplit ⊢
  generalize (c :: cs).dropWhile (fun a => decide ((d.mem.rc a).top = (d.mem.rc c).top)) = last at hsplit ⊢
  have hlast : (c :: cs).drop cur.length = last := by
    rw [← hsplit, drop_left]
  rw [hlast]

theorem le_lastBandStart (pre cur last : List Rect) (top : Int) (hcur : cur ≠ []) (htop : ∀ r ∈ cur, r.top = top)
    (hlast : ∀ r, last.head? = some r → r.top ≠ top) (hne : last ≠ [])
    : pre.length + cur.length ≤ MiniGui.lastBandStart (pre ++ cur ++ last) := by
  by_contra hlt
  rw [not_le] at hlt
  obtain ⟨x, t, hx⟩ := exists_cons_of_ne_nil hne
  obtain ⟨init, y, hy⟩ : ∃ init y, cur = init ++ [y] := by
    rcases eq_nil_or_concat cur with hnil | ⟨init, y, hconcat⟩
    . contradiction
    . exact ⟨init, y, by rw [hconcat, concat_eq_append]⟩
  have hytop := htop y (by rw [hy]; simp)
  have hxtop := hlast x (by rw [hx]; rfl)
  rw [hy, length_append, length_singleton] at hlt
  have hgety : (pre ++ cur ++ last)[pre.length + init.length]? = some y := by
    rw [hy, append_assoc, getElem?_append_right (by omega), Nat.add_sub_cancel_left, append_assoc,
      getElem?_append_right (Nat.le_refl _), Nat.sub_self]
    rfl
  have hgetx : (pre ++ cur ++ last)[pre.length + init.length + 1]? = some x := by
    have hlen : (pre ++ cur).length = pre.length + init.length + 1 := by
      rw [hy]
      simp only [length_append, length_singleton]
      omega
    rw [hx, getElem?_append_right (by omega), hlen, Nat.sub_self]
    rfl
  rw [hy] at hgety hgetx
  obtain ⟨tail, htail, heqy⟩ := top_of_lastBandStart (by omega) hgety
  obtain ⟨tail', htail', heqx⟩ := top_of_lastBandStart (by omega) hgetx
  rw [htail, Option.some.injEq] at htail'
  rw [htail'] at heqy
  omega

theorem regionCoalesce_building {a b : Nat} {pp cp : Option Nat} (h : Building mem0 keep d l rects)
    (hprev : AtPos l a pp) (hcur : AtPos l b cp) (hle : pp.getD 0 ≤ cp.getD 0) (hl : l ≠ [])
    : ∃ l', Building mem0 keep (regionCoalesce d a b).1 l' (MiniGui.regionCoalesce rects pp cp).1
        ∧ AtPos l' (regionCoalesce d a b).2 (some (MiniGui.regionCoalesce rects pp cp).2) := by
  have hp := hprev.resolve h.rep hl
  have hc := hcur.resolve h.rep hl
  by_cases heq : pp.getD 0 = cp.getD 0
  . -- There is no previous band.
    have hsame : (if a = 0 then d.head else a) = (if b = 0 then d.head else b) := by
      rw [heq, hc, Option.some.injEq] at hp
      exact hp.symm
    refine ⟨l, ?_⟩
    unfold regionCoalesce MiniGui.regionCoalesce
    rw [if_pos hsame, if_pos heq]
    exact ⟨h, hp⟩
  obtain ⟨F, ps, cs, hsplit, hF, hFP⟩ := split_between hp hc (by omega)
  generalize hpa : (if a = 0 then d.head else a) = p at hp hsplit hFP
  generalize hcb : (if b = 0 then d.head else b) = c at hc hsplit
  have hwhole := h
  rw [hsplit] at h
  have hrects := h.rects_eq
  rw [map_append, map_append] at hrects
  rw [regionCoalesce_cells h hpa hcb, ← hrects,
    regionCoalesce_split (F.map d.mem.rc) ((p :: ps).map d.mem.rc) ((c :: cs).map d.mem.rc)
      (by rw [length_map, hF]) (by rw [length_map, length_map, hFP]) (by simp)]
  have hmtake : ((c :: cs).map d.mem.rc).takeWhile
      (fun r => decide (r.top = (((c :: cs).map d.mem.rc).headD default).top))
        = ((c :: cs).takeWhile fun a => decide ((d.mem.rc a).top = (d.mem.rc c).top)).map d.mem.rc := by
    rw [takeWhile_map]
    rfl
  have hmdrop : ((c :: cs).map d.mem.rc).dropWhile
      (fun r => decide (r.top = (((c :: cs).map d.mem.rc).headD default).top))
        = ((c :: cs).dropWhile fun a => decide ((d.mem.rc a).top = (d.mem.rc c).top)).map d.mem.rc := by
    rw [dropWhile_map]
    rfl
  have htops : ∀ x ∈ (c :: cs).takeWhile (fun a => decide ((d.mem.rc a).top = (d.mem.rc c).top)),
      (d.mem.rc x).top = (d.mem.rc c).top := by
    intro x hx
    simpa using mem_takeWhile_imp hx
  have hlasttop := head?_dropWhile_not (fun a => decide ((d.mem.rc a).top = (d.mem.rc c).top)) (c :: cs)
  have hjoin := takeWhile_append_dropWhile
    (p := fun a => decide ((d.mem.rc a).top = (d.mem.rc c).top)) (l := c :: cs)
  have hwalk := lastBandStart_building hwhole hl
  rw [hmtake, hmdrop, hrects]
  rw [takeWhile_cons_of_pos (by simp)] at htops hjoin ⊢
  generalize cs.takeWhile (fun a => decide ((d.mem.rc a).top = (d.mem.rc c).top)) = curs at htops hjoin ⊢
  generalize (c :: cs).dropWhile (fun a => decide ((d.mem.rc a).top = (d.mem.rc c).top)) = last at hlasttop hjoin ⊢
  have hmap : ∀ m : List Nat, (m.map d.mem.rc).map (fun r => (r.left, r.right))
      = m.map fun a => ((d.mem.rc a).left, (d.mem.rc a).right) := by
    intro m
    rw [List.map_map]
    rfl
  have hmore : last.map d.mem.rc ≠ [] ↔ last ≠ [] := by
    rw [Ne, map_eq_nil_iff]
  have hPC : F.length + (p :: ps).length = cp.getD 0 := hFP
  dsimp only
  rw [hmap, hmap, length_map, length_map, length_map, hPC, hF]
  simp only [hmore]
  generalize hnew : (if last ≠ [] then lastBandStart d.mem d.mem.used.card d.tail else c) = newStart
  generalize hnew' : (if last ≠ [] then MiniGui.lastBandStart rects else cp.getD 0) = newStart'
  have hat : l[newStart']? = some newStart := by
    rw [← hnew, ← hnew']
    split
    . exact hwalk
    . exact hc
  by_cases hmerge : (c :: curs).length = (p :: ps).length ∧ (c :: curs).length ≠ 0
      ∧ (d.mem.rc p).bottom = (d.mem.rc c).top
      ∧ (p :: ps).map (fun a => ((d.mem.rc a).left, (d.mem.rc a).right))
        = (c :: curs).map (fun a => ((d.mem.rc a).left, (d.mem.rc a).right))
  . rw [if_pos hmerge]
    have hmerge' := hmerge
    simp only [map_cons] at hmerge' ⊢
    rw [headD_cons, headD_cons, if_pos hmerge']
    have hwholesplit : l = F ++ p :: ps ++ (c :: curs) ++ last := by
      rw [hsplit, ← hjoin, append_assoc _ (c :: curs)]
    rw [hwholesplit] at hat hwhole
    refine ⟨F ++ p :: ps ++ last, mergeBand_building hwhole hmerge.1.symm, ?_⟩
    by_cases hlast : last = []
    . rw [if_neg (fun hne => hne hlast), if_neg (fun hne => hne hlast)]
      show (F ++ p :: ps ++ last)[pp.getD 0]? = some p
      rw [append_assoc, getElem?_append_right (by omega), hF, Nat.sub_self]
      rfl
    rw [if_pos hlast, if_pos hlast]
    rw [if_pos hlast] at hnew'
    have hbehind := le_lastBandStart ((F ++ p :: ps).map d.mem.rc) ((c :: curs).map d.mem.rc)
      (last.map d.mem.rc) (d.mem.rc c).top (by simp)
      (by
        intro r hr
        rw [List.mem_map] at hr
        obtain ⟨x, hx, heqx⟩ := hr
        rw [← heqx]
        exact htops x hx)
      (by
        intro r hr
        rw [head?_map, Option.map_eq_some_iff] at hr
        obtain ⟨x, hx, heqx⟩ := hr
        rw [hx] at hlasttop
        rw [← heqx]
        simpa using hlasttop)
      (by simpa using hlast)
    have hrects' : (F ++ p :: ps).map d.mem.rc ++ (c :: curs).map d.mem.rc ++ last.map d.mem.rc = rects := by
      rw [← hwhole.rects_eq]
      simp only [map_append]
    have hlen : (F ++ p :: ps ++ c :: curs).length = (F ++ p :: ps).length + (c :: curs).length := by
      rw [length_append]
    rw [hrects', hnew', length_map, length_map] at hbehind
    show (F ++ p :: ps ++ last)[newStart' - (c :: curs).length]? = some newStart
    rw [getElem?_append_right (by omega), hlen] at hat
    rw [getElem?_append_right (by omega), ← hat]
    congr 1
    omega
  . rw [if_neg hmerge]
    simp only [map_cons] at hmerge ⊢
    rw [headD_cons, headD_cons, if_neg hmerge]
    exact ⟨l, hwhole, hat⟩

end MiniGui.Cells
