import MiniGui.Gdi.FloodSegments

namespace MiniGui

open List
namespace Flood

theorem shortOf_of_range {n : Int} (h : -32768 ≤ n ∧ n ≤ 32767) : shortOf n = n :=
  Int.bmod_eq_of_le (by omega) (by omega)

def Segment.first (s : Segment) : Int × Int :=
  (s.left, s.y)

variable {s : Segment} {p : FloodedLine} {x : Int}

namespace FillEnv

section Count

open Classical

variable (env : FillEnv) (start : Int × Int)

noncomputable def starts : Finset (Int × Int) :=
  (Finset.Ico env.dstRc.left env.dstRc.right ×ˢ Finset.Ico env.dstRc.top env.dstRc.bottom).filter fun p =>
    env.Comp start p ∧ ¬env.Comp start (p.1 - 1, p.2)

noncomputable def total : Nat :=
  env.rows + (env.starts start).card - ((env.starts start).image Prod.snd).card

variable {env start}

theorem Run.first_mem (h : env.Run start s) : s.first ∈ env.starts start := by
  have hcomp := h.comp s.left (le_refl _) h.proper
  have hmem := hcomp.good.1
  unfold Rect.Mem at hmem
  unfold starts Segment.first
  rw [Finset.mem_filter, Finset.mem_product, Finset.mem_Ico, Finset.mem_Ico]
  exact ⟨by dsimp only; omega, hcomp, fun hleft => h.left hleft.good⟩

theorem starts_eq_empty (h : ∀ p, ¬env.Comp start p) : env.starts start = ∅ := by
  unfold starts
  rw [Finset.filter_eq_empty_iff]
  intro p _ hp
  exact h p hp.1

variable {drawn : List Segment}

section

variable (hruns : ∀ s ∈ drawn, env.Run start s)
include hruns

theorem first_nodup (hapart : drawn.Pairwise Segment.Apart) : (drawn.map Segment.first).Nodup := by
  rw [Nodup, pairwise_map]
  refine hapart.imp_of_mem ?_
  intro s t hs ht h heq
  unfold Segment.first at heq
  rw [Prod.mk.injEq] at heq
  have hsp := (hruns s hs).proper
  have htp := (hruns t ht).proper
  apply h (s.left, s.y)
  unfold Segment.Mem
  omega

theorem card_first (hapart : drawn.Pairwise Segment.Apart)
    : (drawn.map Segment.first).toFinset.card = drawn.length := by
  rw [toFinset_card_of_nodup (first_nodup hruns hapart), length_map]

theorem first_subset : (drawn.map Segment.first).toFinset ⊆ env.starts start := by
  intro p hp
  rw [mem_toFinset, mem_map] at hp
  obtain ⟨s, hs, heq⟩ := hp
  rw [← heq]
  exact (hruns s hs).first_mem

theorem length_le_card (hapart : drawn.Pairwise Segment.Apart)
    : drawn.length ≤ (env.starts start).card := by
  rw [← card_first hruns hapart]
  exact Finset.card_le_card (first_subset hruns)

theorem length_add_le (hapart : drawn.Pairwise Segment.Apart)
    : drawn.length + ((env.starts start).image Prod.snd).card
        ≤ (env.starts start).card + (drawn.map Segment.y).toFinset.card := by
  have hrows : (env.starts start).image Prod.snd
      ⊆ (drawn.map Segment.y).toFinset
        ∪ (env.starts start \ (drawn.map Segment.first).toFinset).image Prod.snd := by
    intro y hy
    rw [Finset.mem_image] at hy
    obtain ⟨p, hp, heq⟩ := hy
    rw [Finset.mem_union, mem_toFinset, mem_map, Finset.mem_image]
    by_cases hin : p ∈ (drawn.map Segment.first).toFinset
    . left
      rw [mem_toFinset, mem_map] at hin
      obtain ⟨s, hs, hfirst⟩ := hin
      refine ⟨s, hs, ?_⟩
      rw [← heq, ← hfirst]
      rfl
    . right
      exact ⟨p, Finset.mem_sdiff.mpr ⟨hp, hin⟩, heq⟩
  have hcard := (Finset.card_le_card hrows).trans (Finset.card_union_le _ _)
  have himage := Finset.card_image_le (s := env.starts start \ (drawn.map Segment.first).toFinset) (f := Prod.snd)
  have hdiff := Finset.card_sdiff_add_card_eq_card (first_subset hruns)
  rw [card_first hruns hapart] at hdiff
  omega

end

theorem length_add_eq (hruns : ∀ s ∈ drawn, env.Run start s) (hapart : drawn.Pairwise Segment.Apart)
    (hall : ∀ p, env.Comp start p → ∃ s ∈ drawn, s.Mem p)
    : drawn.length + ((env.starts start).image Prod.snd).card
        = (env.starts start).card + (drawn.map Segment.y).toFinset.card := by
  have hstarts : env.starts start = (drawn.map Segment.first).toFinset := by
    apply subset_antisymm _ (first_subset hruns)
    intro p hp
    unfold starts at hp
    rw [Finset.mem_filter] at hp
    obtain ⟨s, hs, hmem⟩ := hall p hp.2.1
    rw [mem_toFinset, mem_map]
    refine ⟨s, hs, ?_⟩
    have hleft : s.left = p.1 := by
      by_contra hne
      apply hp.2.2
      rw [hmem.2]
      exact (hruns s hs).comp (p.1 - 1) (by have h := hmem.1; omega) (by have h := hmem.1; omega)
    exact Prod.ext hleft hmem.2.symm
  have hrows : (env.starts start).image Prod.snd = (drawn.map Segment.y).toFinset := by
    ext y
    rw [hstarts, Finset.mem_image, mem_toFinset, mem_map]
    constructor
    . rintro ⟨p, hp, heq⟩
      rw [mem_toFinset, mem_map] at hp
      obtain ⟨s, hs, hfirst⟩ := hp
      refine ⟨s, hs, ?_⟩
      rw [← heq, ← hfirst]
      rfl
    . rintro ⟨s, hs, heq⟩
      exact ⟨s.first, mem_toFinset.mpr (mem_map_of_mem hs), heq⟩
  rw [hrows, hstarts, card_first hruns hapart]

end Count

structure Fits (env : FillEnv) (start : Int × Int) : Prop where
  pixel : ∀ p, env.Comp start p → (-32768 ≤ p.1 ∧ p.1 ≤ 32767) ∧ -32768 ≤ p.2 ∧ p.2 ≤ 32767
  index : ∀ i, env.rows ≤ i → i < env.total start → i ≤ 32767

def Short (env : FillEnv) (start : Int × Int) : Prop :=
  ∃ i, env.rows ≤ i ∧ i < env.total start ∧ env.grants (i + 1) = false

end FillEnv

def FloodedLine.todo (p : FloodedLine) : Nat :=
  p.todoAbove.toNat + p.todoBelow.toNat

namespace FloodInfo

def todo (fi : FloodInfo) : Nat :=
  (fi.lines.map FloodedLine.todo).sum

def potential (fi : FloodInfo) : Int :=
  fi.todo - 3 * fi.drawn.length

end FloodInfo

theorem sum_set {l : List FloodedLine} {i : Nat} (hp : l[i]? = some p) (q : FloodedLine)
    : ((l.set i q).map FloodedLine.todo).sum + p.todo = (l.map FloodedLine.todo).sum + q.todo := by
  induction l generalizing i with
  | nil => cases hp
  | cons a l ih =>
    cases i with
    | zero =>
      rw [getElem?_cons_zero] at hp
      rw [set_cons_zero, map_cons, map_cons, sum_cons, sum_cons, Option.some.inj hp]
      omega
    | succ i =>
      rw [getElem?_cons_succ] at hp
      have hrest := ih hp
      rw [set_cons_succ, map_cons, map_cons, sum_cons, sum_cons]
      omega

structure Base (env : FillEnv) (start : Int × Int) (fi : FloodInfo) (row : Nat → Nat) : Prop where
  linked : Linked env.rows fi.lines row
  used : ∀ (i : Nat) (p : FloodedLine), fi.lines[i]? = some p → p.inUse = true →
    env.Run start p.seg ∧ p.y = env.dstRc.top + row i
  unused : ∀ (i : Nat) (p : FloodedLine), fi.lines[i]? = some p → p.inUse = false →
    i < env.rows ∧ p.flags = false ∧ p.rpos < p.lpos ∧ p.next = 0
  drawn : ∀ s, s ∈ fi.drawn ↔ ∃ (i : Nat) (p : FloodedLine), fi.lines[i]? = some p ∧ p.inUse = true ∧ p.seg = s
  apart : fi.drawn.Pairwise Segment.Apart
  count : fi.lines.length + (fi.drawn.map Segment.y).toFinset.card = env.rows + fi.drawn.length
  granted : ∀ i, env.rows ≤ i → i < fi.lines.length → env.grants (i + 1) = true

structure Grows (env : FillEnv) (fi fi' : FloodInfo) : Prop where
  drawn : ∀ s ∈ fi.drawn, s ∈ fi'.drawn
  lines : ∀ (i : Nat) (p' : FloodedLine), fi'.lines[i]? = some p' →
    (∃ p n, fi.lines[i]? = some p ∧ p' = { p with next := n })
      ∨ (p'.inUse = true ∧ p'.todoAbove = decide (p'.y > env.dstRc.top)
        ∧ p'.todoBelow = decide (p'.y + 1 < env.dstRc.bottom))
  length : fi.lines.length ≤ fi'.lines.length
  potential : fi'.potential ≤ fi.potential

variable {env : FillEnv} {start : Int × Int} {fi : FloodInfo} {row : Nat → Nat}

theorem Grows.refl : Grows env fi fi where
  drawn := fun _ h => h
  lines := fun _ p h => Or.inl ⟨p, p.next, h, rfl⟩
  length := le_refl _
  potential := le_refl _

theorem Grows.trans {fi' fi'' : FloodInfo} (h : Grows env fi fi') (h' : Grows env fi' fi'') : Grows env fi fi'' where
  drawn := fun s hs => h'.drawn s (h.drawn s hs)
  lines := by
    intro i p'' hp''
    rcases h'.lines i p'' hp'' with ⟨p', n, hp', heq⟩ | hfresh
    . rcases h.lines i p' hp' with ⟨p, m, hp, heq'⟩ | hfresh
      . refine .inl ⟨p, n, hp, ?_⟩
        rw [heq, heq']
      . rw [heq]
        exact .inr hfresh
    . exact .inr hfresh
  length := h.length.trans h'.length
  potential := h'.potential.trans h.potential

section

variable (h : Base env start fi row)
include h

theorem Base.run_of_drawn (hs : s ∈ fi.drawn) : env.Run start s := by
  obtain ⟨i, p, hp, huse, heq⟩ := (h.drawn s).mp hs
  rw [← heq]
  exact (h.used i p hp huse).1

theorem Base.potential_ge : -3 * ((env.starts start).card : Int) ≤ fi.potential := by
  have hle := FillEnv.length_le_card (fun s hs => h.run_of_drawn hs) h.apart
  unfold FloodInfo.potential
  omega

variable (hs : env.Run start s)
include hs

theorem Base.apart_append {p : Int × Int}
    (hp : s.Mem p) (hnew : ∀ t ∈ fi.drawn, ¬t.Mem p) : (fi.drawn ++ [s]).Pairwise Segment.Apart := by
  rw [pairwise_append]
  refine ⟨h.apart, pairwise_singleton _ _, ?_⟩
  intro t ht u hu
  rw [mem_singleton.mp hu]
  apply (h.run_of_drawn ht).apart hs
  intro heq
  apply hnew t ht
  rw [heq]
  exact hp

theorem Base.runs_append : ∀ t ∈ fi.drawn ++ [s], env.Run start t := by
  intro t ht
  rcases mem_append.mp ht with hold | hnew
  . exact h.run_of_drawn hold
  . rw [mem_singleton.mp hnew]
    exact hs

structure Added (env : FillEnv) (s : Segment) (lines lines' : List FloodedLine) (row row' : Nat → Nat) (k : Nat)
    : Prop where
  new : lines'[k]? = some { env.stored s with lpos := s.left, rpos := s.right, y := s.y }
  place : s.y = env.dstRc.top + row' k
  back : ∀ (i : Nat) (p' : FloodedLine), lines'[i]? = some p' → i ≠ k →
    ∃ p n, lines[i]? = some p ∧ p' = { p with next := n } ∧ row' i = row i ∧ (p.inUse = false → n = p.next)
  forth : ∀ (i : Nat) (p : FloodedLine), lines[i]? = some p → p.inUse = true →
    i ≠ k ∧ ∃ n, lines'[i]? = some { p with next := n }
  todo : (lines'.map FloodedLine.todo).sum ≤ (lines.map FloodedLine.todo).sum + 2

theorem Base.add {lines' : List FloodedLine}
    {row' : Nat → Nat} {k : Nat} (hlinked : Linked env.rows lines' row') (hadd : Added env s fi.lines lines' row row' k)
    (hapart : (fi.drawn ++ [s]).Pairwise Segment.Apart)
    (hcount : lines'.length + ((fi.drawn ++ [s]).map Segment.y).toFinset.card = env.rows + (fi.drawn ++ [s]).length)
    (hlength : fi.lines.length ≤ lines'.length)
    (hgranted : ∀ i, env.rows ≤ i → i < lines'.length → env.grants (i + 1) = true)
    : Base env start ⟨lines', fi.drawn ++ [s]⟩ row' ∧ Grows env fi ⟨lines', fi.drawn ++ [s]⟩ := by
  constructor
  . constructor
    case linked => exact hlinked
    case used =>
      intro i p' hp' huse
      by_cases hik : i = k
      . rw [hik] at hp'
        have heq := Option.some.inj (hp'.symm.trans hadd.new)
        rw [heq, hik]
        exact ⟨hs, hadd.place⟩
      obtain ⟨p, n, hp, heq, hrow, _⟩ := hadd.back i p' hp' hik
      rw [heq] at huse ⊢
      rw [hrow]
      exact h.used i p hp huse
    case unused =>
      intro i p' hp' huse
      by_cases hik : i = k
      . rw [hik] at hp'
        have heq := Option.some.inj (hp'.symm.trans hadd.new)
        rw [heq] at huse
        cases huse
      obtain ⟨p, n, hp, heq, _, hn⟩ := hadd.back i p' hp' hik
      rw [heq] at huse ⊢
      obtain ⟨h1, h2, h3, h4⟩ := h.unused i p hp huse
      exact ⟨h1, h2, h3, (hn huse).trans h4⟩
    case drawn =>
      intro t
      rw [mem_append, mem_singleton]
      constructor
      . rintro (hold | hnew)
        . obtain ⟨i, p, hp, huse, heq⟩ := (h.drawn t).mp hold
          obtain ⟨_, n, hp'⟩ := hadd.forth i p hp huse
          exact ⟨i, _, hp', huse, heq⟩
        . rw [hnew]
          exact ⟨k, _, hadd.new, rfl, rfl⟩
      rintro ⟨i, p', hp', huse, heq⟩
      by_cases hik : i = k
      . right
        rw [hik] at hp'
        have hstored := Option.some.inj (hp'.symm.trans hadd.new)
        rw [← heq, hstored]
        rfl
      left
      obtain ⟨p, n, hp, hfields, _, _⟩ := hadd.back i p' hp' hik
      rw [h.drawn]
      refine ⟨i, p, hp, ?_, ?_⟩
      . rw [hfields] at huse
        exact huse
      . rw [← heq, hfields]
        rfl
    case apart => exact hapart
    case count => exact hcount
    case granted => exact hgranted
  constructor
  case drawn => exact fun t ht => mem_append_left _ ht
  case lines =>
    intro i p' hp'
    by_cases hik : i = k
    . right
      rw [hik] at hp'
      rw [Option.some.inj (hp'.symm.trans hadd.new)]
      exact ⟨rfl, rfl, rfl⟩
    . obtain ⟨p, n, hp, heq, _, _⟩ := hadd.back i p' hp' hik
      exact .inl ⟨p, n, hp, heq⟩
  case length => exact hlength
  case potential =>
    have htodo := hadd.todo
    unfold FloodInfo.potential FloodInfo.todo
    dsimp only
    rw [length_append, length_singleton, Nat.cast_add, Nat.cast_one]
    omega

end

theorem row_eq {y : Int} (h : env.dstRc.Mem x y)
    : y - env.dstRc.top = ((y - env.dstRc.top).toNat : Int) ∧ (y - env.dstRc.top).toNat < env.rows := by
  unfold Rect.Mem at h
  unfold FillEnv.rows
  omega

theorem stored_eq (hfits : env.Fits start) (hs : env.Run start s)
    : { env.stored s with lpos := s.left, rpos := s.right, y := s.y } = env.stored s := by
  have hleft := hfits.pixel _ (hs.comp s.left (le_refl _) hs.proper)
  have hright := hfits.pixel _ (hs.comp s.right hs.proper (le_refl _))
  unfold FillEnv.stored
  rw [shortOf_of_range hleft.1, shortOf_of_range hright.1, shortOf_of_range hleft.2]

variable (h : Base env start fi row)
include h

theorem Base.mem_row {y : Int} (hs : s ∈ fi.drawn) (hmem : s.Mem (x, y)) (hy : env.dstRc.Mem x y)
    : ∃ (i : Nat) (p : FloodedLine), fi.lines[i]? = some p ∧ p.inUse = true ∧ p.seg = s
      ∧ (i = (y - env.dstRc.top).toNat ∨ Behind env.rows row (y - env.dstRc.top).toNat i) := by
  obtain ⟨i, p, hp, huse, heq⟩ := (h.drawn s).mp hs
  have hr := row_eq hy
  have hplace := (h.used i p hp huse).2
  have hpy : p.y = y := by
    have hseg := hmem.2
    rw [← heq] at hseg
    exact hseg.symm
  have hrow : row i = (y - env.dstRc.top).toNat := by omega
  refine ⟨i, p, hp, huse, heq, ?_⟩
  by_cases hi : i < env.rows
  . left
    rw [← hrow]
    exact (h.linked.head i hi).symm
  . right
    have hhead := h.linked.head _ hr.2
    exact ⟨by omega, by omega, by omega⟩

theorem Base.add_head (hfits : env.Fits start) (hs : env.Run start s) (hx : s.Mem (x, s.y)) (hnew : ∀ t ∈ fi.drawn, ¬t.Mem (x, s.y))
    (hp : fi.lines[(s.y - env.dstRc.top).toNat]? = some p) (huse : p.inUse = false)
    : Base env start ⟨fi.lines.set (s.y - env.dstRc.top).toNat (env.stored s), fi.drawn ++ [s]⟩ row
      ∧ Grows env fi ⟨fi.lines.set (s.y - env.dstRc.top).toNat (env.stored s), fi.drawn ++ [s]⟩ := by
  have hgood := (hs.comp_of_mem hx).good
  have hr := row_eq hgood.1
  obtain ⟨_, hflags, hempty, hnext⟩ := h.unused _ p hp huse
  have hlt := (List.getElem?_eq_some_iff.mp hp).1
  have hrow := h.linked.head _ hr.2
  have hset : ∀ i, (fi.lines.set (s.y - env.dstRc.top).toNat (env.stored s))[i]?
      = if (s.y - env.dstRc.top).toNat = i then some (env.stored s) else fi.lines[i]? := by
    intro i
    rw [getElem?_set]
    by_cases hi : (s.y - env.dstRc.top).toNat = i
    . rw [if_pos hi, if_pos hi, if_pos hlt]
    . rw [if_neg hi, if_neg hi]
  have hnorow : s.y ∉ (fi.drawn.map Segment.y).toFinset := by
    rw [mem_toFinset, mem_map]
    rintro ⟨t, ht, hty⟩
    obtain ⟨i, q, hq, hqu, hseg⟩ := (h.drawn t).mp ht
    have hplace := (h.used i q hq hqu).2
    have hqy : q.y = s.y := by
      rw [← hty, ← hseg]
      rfl
    have hrowi : row i = (s.y - env.dstRc.top).toNat := by omega
    by_cases hi : i < env.rows
    . have hii := h.linked.head i hi
      rw [← hii, hrowi, hp] at hq
      rw [← Option.some.inj hq, huse] at hqu
      cases hqu
    have hile := (List.getElem?_eq_some_iff.mp hq).1
    rcases h.linked.next _ p hp with ⟨_, hnone⟩ | ⟨j, hj, hbehind, _⟩
    . exact hnone i ⟨by omega, by omega, hrowi.trans hrow.symm⟩ hile
    . have hjlt := hbehind.1
      omega
  apply h.add (k := (s.y - env.dstRc.top).toNat) hs (h.linked.set hp hnext.symm) _ (h.apart_append hs hx hnew)
  . rw [length_set, map_append, toFinset_append, length_append]
    have hcount := h.count
    have hsingle : (List.map Segment.y [s]).toFinset = {s.y} := by simp
    rw [hsingle, Finset.union_comm, ← Finset.insert_eq, Finset.card_insert_of_notMem hnorow, length_singleton]
    omega
  . rw [length_set]
  . intro i h1 h2
    rw [length_set] at h2
    exact h.granted i h1 h2
  constructor
  case new =>
    rw [hset, if_pos rfl, stored_eq hfits hs]
  case place =>
    rw [hrow]
    omega
  case back =>
    intro i p' hp' hik
    rw [hset, if_neg (Ne.symm hik)] at hp'
    exact ⟨p', p'.next, hp', rfl, rfl, fun _ => rfl⟩
  case forth =>
    intro i q hq hqu
    have hik : i ≠ (s.y - env.dstRc.top).toNat := by
      intro heq
      rw [heq, hp] at hq
      rw [← Option.some.inj hq, huse] at hqu
      cases hqu
    refine ⟨hik, q.next, ?_⟩
    rw [hset, if_neg (Ne.symm hik)]
    exact hq
  case todo =>
    have hsum := sum_set hp (env.stored s)
    have htwo : (env.stored s).todo ≤ 2 := by
      unfold FloodedLine.todo
      have h1 := Bool.toNat_le (env.stored s).todoAbove
      have h2 := Bool.toNat_le (env.stored s).todoBelow
      omega
    omega

theorem Base.add_last (hfits : env.Fits start) (hs : env.Run start s) (hx : s.Mem (x, s.y)) (hnew : ∀ t ∈ fi.drawn, ¬t.Mem (x, s.y)) {t : Segment} (ht : t ∈ fi.drawn)
    (hty : t.y = s.y) {c : Nat} (hp : fi.lines[c]? = some p) (huse : p.inUse = true)
    (hlast : p.next = 0) (hrow : s.y = env.dstRc.top + row c) : fi.lines.length < env.total start
      ∧ (env.grants (fi.lines.length + 1) = true →
        ∃ row', Base env start
            ⟨fi.lines.set c { p with next := shortOf fi.lines.length } ++ [env.stored s], fi.drawn ++ [s]⟩ row'
          ∧ Grows env fi
            ⟨fi.lines.set c { p with next := shortOf fi.lines.length } ++ [env.stored s], fi.drawn ++ [s]⟩) := by
  have hc := (List.getElem?_eq_some_iff.mp hp).1
  have hheads := h.linked.heads
  have hcount := h.count
  have hrows : ((fi.drawn ++ [s]).map Segment.y).toFinset = (fi.drawn.map Segment.y).toFinset := by
    have hin : s.y ∈ (fi.drawn.map Segment.y).toFinset := by
      rw [← hty, mem_toFinset]
      exact mem_map_of_mem ht
    have hsingle : (List.map Segment.y [s]).toFinset = {s.y} := by simp
    rw [map_append, toFinset_append, hsingle, Finset.union_comm, ← Finset.insert_eq,
      Finset.insert_eq_of_mem hin]
  have hapart := h.apart_append hs hx hnew
  have htotal : fi.lines.length < env.total start := by
    have hle := FillEnv.length_add_le (h.runs_append hs) hapart
    rw [hrows, length_append, length_singleton] at hle
    unfold FillEnv.total
    omega
  refine ⟨htotal, ?_⟩
  intro hgrants
  have hindex := hfits.index fi.lines.length hheads htotal
  rw [shortOf_of_range ⟨by omega, by omega⟩]
  have hget : ∀ i, i < fi.lines.length →
      (fi.lines.set c { p with next := (fi.lines.length : Int) } ++ [env.stored s])[i]?
        = if c = i then some { p with next := (fi.lines.length : Int) } else fi.lines[i]? := by
    intro i hi
    rw [getElem?_append_left (by rw [length_set]; exact hi), getElem?_set]
    by_cases hci : c = i
    . rw [if_pos hci, if_pos hci, if_pos hc]
    . rw [if_neg hci, if_neg hci]
  refine ⟨rowAfter row fi.lines.length (row c), ?_⟩
  apply h.add (k := fi.lines.length) hs (h.linked.append hp hlast rfl) _ hapart
  . rw [hrows, length_append, length_set, length_singleton, length_append, length_singleton]
    omega
  . rw [length_append, length_set]
    omega
  . intro i h1 h2
    rw [length_append, length_set, length_singleton] at h2
    by_cases heq : i = fi.lines.length
    . rw [heq]
      exact hgrants
    . exact h.granted i h1 (by omega)
  constructor
  case new =>
    rw [getElem?_append_right (by rw [length_set]), length_set, Nat.sub_self, stored_eq hfits hs]
    rfl
  case place =>
    unfold rowAfter
    rw [if_pos rfl]
    exact hrow
  case back =>
    intro i p' hp' hik
    have hi := (List.getElem?_eq_some_iff.mp hp').1
    rw [length_append, length_set, length_singleton] at hi
    rw [hget i (by omega)] at hp'
    have hrowi : rowAfter row fi.lines.length (row c) i = row i := if_neg hik
    split at hp'
    next hci =>
      rw [← hci] at hrowi ⊢
      refine ⟨p, _, hp, (Option.some.inj hp').symm, hrowi, ?_⟩
      intro hfalse
      rw [huse] at hfalse
      cases hfalse
    next => exact ⟨p', p'.next, hp', rfl, hrowi, fun _ => rfl⟩
  case forth =>
    intro i q hq hqu
    have hi := (List.getElem?_eq_some_iff.mp hq).1
    refine ⟨by omega, ?_⟩
    rw [hget i hi]
    split
    next hci =>
      rw [← hci, hp] at hq
      rw [← Option.some.inj hq]
      exact ⟨_, rfl⟩
    next => exact ⟨q.next, hq⟩
  case todo =>
    have hsum := sum_set hp { p with next := (fi.lines.length : Int) }
    have hsame : FloodedLine.todo { p with next := (fi.lines.length : Int) } = p.todo := rfl
    have htwo : (env.stored s).todo ≤ 2 := by
      unfold FloodedLine.todo
      have h1 := Bool.toNat_le (env.stored s).todoAbove
      have h2 := Bool.toNat_le (env.stored s).todoBelow
      omega
    rw [map_append, sum_append, map_singleton, sum_singleton]
    omega

end Flood

end MiniGui
