import MiniGui.Gdi.FloodFinds

namespace MiniGui
namespace Flood

def Done (env : FillEnv) (fi : FloodInfo) (y a b : Int) : Prop :=
  ∀ u, a ≤ u → u < b → env.Good (u, y) → ∃ s ∈ fi.drawn, s.Mem (u, y)

variable {env : FillEnv} {start : Int × Int} {fi fi' : FloodInfo} {row : Nat → Nat}

theorem Done.mono {y a b : Int} (h : Done env fi y a b) (hg : Grows env fi fi') : Done env fi' y a b := by
  intro u h1 h2 hgood
  obtain ⟨s, hs, hmem⟩ := h u h1 h2 hgood
  exact ⟨s, hg.drawn s hs, hmem⟩

section

variable (h : Base env start fi row)
include h

theorem Base.inUse_of_flags {i : Nat} {p : FloodedLine} (hp : fi.lines[i]? = some p)
    (hflags : p.flags = true) : p.inUse = true := by
  by_contra hfalse
  rw [Bool.not_eq_true] at hfalse
  rw [(h.unused i p hp hfalse).2.1] at hflags
  cases hflags

theorem Base.mem_drawn {i : Nat} {p : FloodedLine} (hp : fi.lines[i]? = some p)
    (huse : p.inUse = true) : p.seg ∈ fi.drawn :=
  (h.drawn _).mpr ⟨i, p, hp, huse, rfl⟩

theorem Base.flooder (hfits : env.Fits start) {x y : Int} (hmem : env.dstRc.Mem x y)
    (hcomp : env.equalPixel x y = true → env.Comp start (x, y)) (hnew : ∀ t ∈ fi.drawn, ¬t.Mem (x, y))
    : (∃ fi' row' next, env.flooder fi x y = .ok (fi', next) ∧ Base env start fi' row' ∧ Grows env fi fi' ∧ x < next
        ∧ Done env fi' y x next)
      ∨ (env.flooder fi x y = .error .wild ∧ env.Short start) := by
  unfold FillEnv.flooder
  by_cases hequal : env.equalPixel x y = false
  . rw [if_pos hequal]
    refine .inl ⟨fi, row, x + 1, rfl, h, Grows.refl, by omega, ?_⟩
    intro u h1 h2 hgood
    have hu : u = x := by omega
    rw [hu] at hgood
    rw [hgood.2] at hequal
    cases hequal
  rw [if_neg hequal]
  rw [Bool.not_eq_false] at hequal
  obtain ⟨hrun, hin⟩ := FillEnv.segmentAt_run (hcomp hequal)
  have hy : (env.segmentAt x y).y = y := rfl
  generalize env.segmentAt x y = s at hrun hin hy ⊢
  rw [← hy] at hin hnew hmem ⊢
  have hdone : ∀ {fi'}, s ∈ fi'.drawn → Done env fi' s.y x (s.right + 2) := by
    intro fi' hs u h1 h2 hgood
    refine ⟨s, hs, ?_, rfl⟩
    have hle := hin.1.1
    have hne : u ≠ s.right + 1 := by
      intro heq
      rw [heq] at hgood
      exact hrun.right hgood
    omega
  have hnext : x < s.right + 2 := by
    have hle := hin.1.2
    omega
  have hr := row_eq hmem
  have hlt : (s.y - env.dstRc.top).toNat < fi.lines.length := lt_of_lt_of_le hr.2 h.linked.heads
  obtain ⟨p, hp⟩ : ∃ p, fi.lines[(s.y - env.dstRc.top).toNat]? = some p := ⟨_, List.getElem?_eq_getElem hlt⟩
  have hat := lineAt_of_lt hp
  rw [← hr.1] at hat
  rw [hat]
  dsimp only
  by_cases huse : p.inUse = true
  . have hflags : p.flags = true := by
      unfold FloodedLine.flags
      rw [huse]
      rfl
    have hrow := h.linked.head _ hr.2
    obtain ⟨c, q, hlast, hq, hzero, hrowc⟩ :=
      h.linked.lastLine (fi.lines.length + 1) hlt (by omega)
    rw [← hr.1] at hlast
    rw [if_pos hflags, hlast]
    dsimp only
    rw [lineAt_of_lt hq]
    dsimp only
    have hqu : q.inUse = true := by
      by_contra hfalse
      rw [Bool.not_eq_true] at hfalse
      have hclt := (h.unused c q hq hfalse).1
      have hcc := h.linked.head c hclt
      rw [hcc, hrow] at hrowc
      rw [hrowc, hp] at hq
      rw [← Option.some.inj hq, huse] at hfalse
      cases hfalse
    have hplace := (h.used _ p hp huse).2
    obtain ⟨htotal, hmore⟩ :=
      h.add_last hfits hrun hin hnew (h.mem_drawn hp huse) (show p.y = s.y by omega) hq hqu hzero (by omega)
    by_cases hgrants : env.grants (fi.lines.length + 1) = true
    . obtain ⟨row', hbase, hgrows⟩ := hmore hgrants
      rw [if_pos hgrants]
      refine .inl ⟨_, row', s.right + 2, rfl, hbase, hgrows, hnext, hdone ?_⟩
      exact List.mem_append_right _ (List.mem_singleton_self s)
    . rw [if_neg hgrants]
      rw [Bool.not_eq_true] at hgrants
      exact .inr ⟨rfl, fi.lines.length, h.linked.heads, htotal, hgrants⟩
  rw [Bool.not_eq_true] at huse
  rw [(h.unused _ p hp huse).2.1, if_neg Bool.false_ne_true]
  obtain ⟨hbase, hgrows⟩ := h.add_head hfits hrun hin hnew hp huse
  refine .inl ⟨_, row, s.right + 2, rfl, hbase, hgrows, hnext, hdone ?_⟩
  exact List.mem_append_right _ (List.mem_singleton_self s)

theorem Base.checkLoop (hfits : env.Fits start) {y right : Int} (rounds : Nat)
    (left : Int) (ret : Bool) (hrow : ∀ u, left ≤ u → u ≤ right →
      env.dstRc.Mem u y ∧ (env.equalPixel u y = true → env.Comp start (u, y)))
    (hrounds : right + 1 - left ≤ rounds)
    : (∃ fi' row' r, env.checkLoop y right rounds fi left ret = .ok (fi', r) ∧ Base env start fi' row'
        ∧ Grows env fi fi' ∧ Done env fi' y left (right + 1) ∧ (r = false → ret = false ∧ fi' = fi))
      ∨ (env.checkLoop y right rounds fi left ret = .error .wild ∧ env.Short start) := by
  induction rounds generalizing fi row left ret with
  | zero =>
    refine .inl ⟨fi, row, ret, rfl, h, Grows.refl, ?_, fun hret => ⟨hret, rfl⟩⟩
    intro u h1 h2
    omega
  | succ rounds ih =>
    unfold FillEnv.checkLoop
    by_cases hle : left ≤ right
    . rw [if_pos hle]
      obtain ⟨hmem, hcomp⟩ := hrow left (le_refl _) hle
      have hr := row_eq hmem
      have hlt : (y - env.dstRc.top).toNat < fi.lines.length := lt_of_lt_of_le hr.2 h.linked.heads
      have hhead := h.linked.head _ hr.2
      have hfind := h.linked.findLine left (fi.lines.length + 1) hlt (by omega)
      rw [← hr.1] at hfind
      rcases hfind with ⟨j, p, hp, hj, hl, hrt, heq⟩ | ⟨heq, hnone⟩
      . rw [heq]
        have huse : p.inUse = true := by
          by_contra hfalse
          rw [Bool.not_eq_true] at hfalse
          have hempty := (h.unused j p hp hfalse).2.2.1
          omega
        obtain ⟨hrun, hplace⟩ := h.used j p hp huse
        have hpy : p.y = y := by
          have hrowj : row j = row (y - env.dstRc.top).toNat := by
            rcases hj with hj | hj
            . rw [hj]
            . exact hj.2.2
          omega
        rcases ih h (p.rpos + 2) ret (fun u h1 h2 => hrow u (by omega) h2) (by push_cast at hrounds; omega) with
          hok | hshort
        . obtain ⟨fi', row', r, hrest, hbase, hgrows, hdone, hret⟩ := hok
          refine .inl ⟨fi', row', r, hrest, hbase, hgrows, ?_, hret⟩
          intro u h1 h2 hgood
          by_cases hu : u ≤ p.rpos
          . refine ⟨p.seg, hgrows.drawn _ (h.mem_drawn hp huse), ⟨?_, hu⟩, hpy.symm⟩
            exact le_trans hl h1
          have hne : u ≠ p.rpos + 1 := by
            intro heq
            rw [heq, ← hpy] at hgood
            exact hrun.right hgood
          exact hdone u (by omega) h2 hgood
        . exact .inr hshort
      rw [heq]
      have hnew : ∀ t ∈ fi.drawn, ¬t.Mem (left, y) := by
        intro t ht htmem
        obtain ⟨i, p, hp, huse, hseg, hplace⟩ := h.mem_row ht htmem hmem
        apply hnone i p hp hplace
        rw [← hseg] at htmem
        exact htmem.1
      rcases h.flooder hfits hmem hcomp hnew with hok1 | ⟨hwild, hshort⟩
      . obtain ⟨fi1, row1, next, hflood, hbase1, hgrows1, hnext, hdone1⟩ := hok1
        rw [hflood]
        rcases ih hbase1 next true (fun u h1 h2 => hrow u (by omega) h2)
          (by push_cast at hrounds; omega) with ⟨fi', row', r, hrest, hbase, hgrows, hdone, hret⟩ | hshort
        . refine .inl ⟨fi', row', r, hrest, hbase, hgrows1.trans hgrows, ?_, ?_⟩
          . intro u h1 h2 hgood
            by_cases hu : u < next
            . exact hdone1.mono hgrows u h1 hu hgood
            . exact hdone u (by omega) h2 hgood
          . intro hfalse
            cases (hret hfalse).1
        . exact .inr hshort
      . rw [hwild]
        exact .inr ⟨rfl, hshort⟩
    . rw [if_neg hle]
      refine .inl ⟨fi, row, ret, rfl, h, Grows.refl, ?_, fun hret => ⟨hret, rfl⟩⟩
      intro u h1 h2
      omega

end

structure Closed (env : FillEnv) (fi : FloodInfo) : Prop where
  below : ∀ (i : Nat) (p : FloodedLine), fi.lines[i]? = some p → p.inUse = true → p.todoBelow = false →
    Done env fi (p.y + 1) p.lpos (p.rpos + 1)
  above : ∀ (i : Nat) (p : FloodedLine), fi.lines[i]? = some p → p.inUse = true → p.todoAbove = false →
    Done env fi (p.y - 1) p.lpos (p.rpos + 1)
  edges : ∀ (i : Nat) (p : FloodedLine), fi.lines[i]? = some p →
    (p.todoAbove = true → env.dstRc.top < p.y) ∧ (p.todoBelow = true → p.y + 1 < env.dstRc.bottom)

theorem Closed.check (h : Closed env fi) {c : Nat} {p q : FloodedLine} (hp : fi.lines[c]? = some p)
    (huse : q.inUse = p.inUse) (hseg : q.seg = p.seg)
    (hg : Grows env { fi with lines := fi.lines.set c q } fi')
    (hbelow : q.todoBelow = p.todoBelow ∨ (q.todoBelow = false ∧ Done env fi' (p.y + 1) p.lpos (p.rpos + 1)))
    (habove : q.todoAbove = p.todoAbove ∨ (q.todoAbove = false ∧ Done env fi' (p.y - 1) p.lpos (p.rpos + 1)))
    : Closed env fi' := by
  have hfields : q.lpos = p.lpos ∧ q.rpos = p.rpos ∧ q.y = p.y := by
    unfold FloodedLine.seg at hseg
    rw [Segment.mk.injEq] at hseg
    exact hseg
  have hc := (List.getElem?_eq_some_iff.mp hp).1
  have hmono : ∀ {y a b}, Done env fi y a b → Done env fi' y a b := by
    intro y a b hdone u h1 h2 hgood
    obtain ⟨s, hs, hmem⟩ := hdone u h1 h2 hgood
    exact ⟨s, hg.drawn s hs, hmem⟩
  -- Each line is `q` or an old one, but for the link, or a new one.
  have hcases : ∀ (i : Nat) (p' : FloodedLine), fi'.lines[i]? = some p' →
      (∃ n, p' = { q with next := n }) ∨ (∃ p0 n, fi.lines[i]? = some p0 ∧ p' = { p0 with next := n })
        ∨ (p'.inUse = true ∧ p'.todoAbove = decide (p'.y > env.dstRc.top)
          ∧ p'.todoBelow = decide (p'.y + 1 < env.dstRc.bottom)) := by
    intro i p' hp'
    rcases hg.lines i p' hp' with ⟨p0, n, hp0, heq⟩ | hfresh
    . dsimp only at hp0
      rw [List.getElem?_set] at hp0
      split at hp0
      next hci =>
        rw [← Option.some.inj hp0] at heq
        exact .inl ⟨n, heq⟩
      next => exact .inr (.inl ⟨p0, n, hp0, heq⟩)
    . exact .inr (.inr hfresh)
  constructor
  case below =>
    intro i p' hp' hpu hflag
    rcases hcases i p' hp' with ⟨n, heq⟩ | ⟨p0, n, hp0, heq⟩ | ⟨_, _, hfresh⟩
    . rw [heq] at hpu hflag ⊢
      rw [hfields.1, hfields.2.1, hfields.2.2]
      rcases hbelow with hsame | ⟨_, hdone⟩
      . exact hmono (h.below c p hp (huse.symm.trans hpu) (hsame.symm.trans hflag))
      . exact hdone
    . rw [heq] at hpu hflag ⊢
      exact hmono (h.below i p0 hp0 hpu hflag)
    rw [hflag] at hfresh
    intro u _ _ hgood
    have hin := hgood.1
    have hout := of_decide_eq_false hfresh.symm
    unfold Rect.Mem at hin
    omega
  case above =>
    intro i p' hp' hpu hflag
    rcases hcases i p' hp' with ⟨n, heq⟩ | ⟨p0, n, hp0, heq⟩ | ⟨_, hfresh, _⟩
    . rw [heq] at hpu hflag ⊢
      rw [hfields.1, hfields.2.1, hfields.2.2]
      rcases habove with hsame | ⟨_, hdone⟩
      . exact hmono (h.above c p hp (huse.symm.trans hpu) (hsame.symm.trans hflag))
      . exact hdone
    . rw [heq] at hpu hflag ⊢
      exact hmono (h.above i p0 hp0 hpu hflag)
    rw [hflag] at hfresh
    intro u _ _ hgood
    have hin := hgood.1
    have hout := of_decide_eq_false hfresh.symm
    unfold Rect.Mem at hin
    omega
  case edges =>
    intro i p' hp'
    rcases hcases i p' hp' with ⟨n, heq⟩ | ⟨p0, n, hp0, heq⟩ | ⟨_, habove', hbelow'⟩
    . rw [heq]
      rw [hfields.2.2]
      constructor
      . intro hflag
        rcases habove with hsame | ⟨hfalse, _⟩
        . exact (h.edges c p hp).1 (hsame.symm.trans hflag)
        . rw [hfalse] at hflag
          cases hflag
      intro hflag
      rcases hbelow with hsame | ⟨hfalse, _⟩
      . exact (h.edges c p hp).2 (hsame.symm.trans hflag)
      . rw [hfalse] at hflag
        cases hflag
    . rw [heq]
      exact h.edges i p0 hp0
    . rw [habove', hbelow']
      exact ⟨of_decide_eq_true, of_decide_eq_true⟩

theorem Base.set (h : Base env start fi row) {c : Nat} {p q : FloodedLine} (hp : fi.lines[c]? = some p)
    (huse : p.inUse = true) (hqu : q.inUse = true) (hseg : q.seg = p.seg) (hnext : q.next = p.next)
    : Base env start { fi with lines := fi.lines.set c q } row := by
  have hc := (List.getElem?_eq_some_iff.mp hp).1
  have hy : q.y = p.y := congrArg Segment.y hseg
  have hset : ∀ (i : Nat), (fi.lines.set c q)[i]? = if c = i then some q else fi.lines[i]? := by
    intro i
    rw [List.getElem?_set]
    by_cases hci : c = i
    . rw [if_pos hci, if_pos hci, if_pos hc]
    . rw [if_neg hci, if_neg hci]
  constructor
  case linked => exact h.linked.set hp hnext
  case used =>
    intro i r hr hru
    rw [hset] at hr
    split at hr
    next hci =>
      rw [← Option.some.inj hr, hseg, hy, ← hci]
      exact h.used c p hp huse
    next => exact h.used i r hr hru
  case unused =>
    intro i r hr hru
    rw [hset] at hr
    split at hr
    next =>
      rw [← Option.some.inj hr, hqu] at hru
      cases hru
    next => exact h.unused i r hr hru
  case drawn =>
    intro s
    rw [h.drawn]
    constructor
    . rintro ⟨i, r, hr, hru, heq⟩
      by_cases hci : c = i
      . refine ⟨i, q, ?_, hqu, ?_⟩
        . dsimp only
          rw [hset, if_pos hci]
        . rw [← hci, hp] at hr
          rw [hseg, Option.some.inj hr]
          exact heq
      . refine ⟨i, r, ?_, hru, heq⟩
        rw [hset, if_neg hci]
        exact hr
    rintro ⟨i, r, hr, hru, heq⟩
    rw [hset] at hr
    split at hr
    next hci =>
      refine ⟨c, p, hp, huse, ?_⟩
      rw [← hseg, Option.some.inj hr]
      exact heq
    next => exact ⟨i, r, hr, hru, heq⟩
  case apart => exact h.apart
  case count =>
    rw [List.length_set]
    exact h.count
  case granted =>
    intro i h1 h2
    rw [List.length_set] at h2
    exact h.granted i h1 h2

end Flood

end MiniGui
