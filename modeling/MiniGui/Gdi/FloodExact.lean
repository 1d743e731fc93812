import MiniGui.Gdi.FloodSteps

namespace MiniGui
namespace Flood

variable {env : FillEnv} {start : Int × Int} {fi fi' : FloodInfo} {row : Nat → Nat} {c : Nat}

variable {p : FloodedLine} {flag : FloodedLine → Bool} {found done : Bool}

theorem potential_set {q : FloodedLine} (hp : fi.lines[c]? = some p)
    : ({ fi with lines := fi.lines.set c q } : FloodInfo).potential + p.todo = fi.potential + q.todo := by
  have hsum := sum_set hp q
  unfold FloodInfo.potential FloodInfo.todo
  dsimp only
  omega

theorem Base.rows_beside (h : Base env start fi row) (hp : fi.lines[c]? = some p)
    (huse : p.inUse = true) {y : Int} (hy : y = p.y + 1 ∨ y = p.y - 1)
    (hedge : env.dstRc.top ≤ y ∧ y < env.dstRc.bottom) : ∀ u, p.lpos ≤ u → u ≤ p.rpos →
        env.dstRc.Mem u y ∧ (env.equalPixel u y = true → env.Comp start (u, y)) := by
  intro u h1 h2
  have hcomp := (h.used c p hp huse).1.comp u h1 h2
  have hmem : env.dstRc.Mem u y := by
    have hin := hcomp.good.1
    unfold Rect.Mem at hin ⊢
    omega
  refine ⟨hmem, ?_⟩
  intro hequal
  exact hcomp.step (.inr ⟨rfl, hy⟩) ⟨hmem, hequal⟩

structure Checked (env : FillEnv) (start : Int × Int) (fi : FloodInfo) (c : Nat) (flag : FloodedLine → Bool)
    (fi' : FloodInfo) (found : Bool) : Prop where
  base : ∃ row', Base env start fi' row'
  closed : Closed env fi'
  drawn : ∀ s ∈ fi.drawn, s ∈ fi'.drawn
  length : fi.lines.length ≤ fi'.lines.length
  less : fi'.potential < fi.potential ∨ (found = false ∧ fi' = fi)
  quiet : found = false → ∃ p q, fi.lines[c]? = some p ∧ fi' = { fi with lines := fi.lines.set c q } ∧ flag q = false
    ∧ (q.todoAbove = true → p.todoAbove = true) ∧ (q.todoBelow = true → p.todoBelow = true)

theorem set_self (hp : fi.lines[c]? = some p) : { fi with lines := fi.lines.set c p } = fi := by
  have hset : fi.lines.set c p = fi.lines := by
    apply List.ext_getElem?
    intro i
    rw [List.getElem?_set]
    split
    next hci =>
      rw [← hci, hp]
      exact if_pos (List.getElem?_eq_some_iff.mp hp).1
    next => rfl
  rw [hset]

section

variable (h : Base env start fi row)
include h

theorem Checked.skip (hclosed : Closed env fi) (hp : fi.lines[c]? = some p) (hflag : flag p = false)
    : Checked env start fi c flag fi false where
  base := ⟨row, h⟩
  closed := hclosed
  drawn := fun _ hs => hs
  length := le_refl _
  less := .inr ⟨rfl, rfl⟩
  quiet := fun _ => ⟨p, p, hp, (set_self hp).symm, hflag, fun hf => hf, fun hf => hf⟩

variable (hfits : env.Fits start)
include hfits

theorem Base.checkFlag (hclosed : Closed env fi) (q : FloodedLine) (hp : fi.lines[c]? = some p) (huse : p.inUse = true) (hqu : q.inUse = true)
    (hseg : q.seg = p.seg) (hnext : q.next = p.next) (htodo : q.todo + 1 = p.todo) {y : Int}
    (hy : y = p.y + 1 ∨ y = p.y - 1) (hedge : env.dstRc.top ≤ y ∧ y < env.dstRc.bottom)
    (hflag : flag q = false)
    (hkeeps : (q.todoAbove = true → p.todoAbove = true) ∧ (q.todoBelow = true → p.todoBelow = true))
    (hbelow : q.todoBelow = p.todoBelow ∨ (q.todoBelow = false ∧ y = p.y + 1))
    (habove : q.todoAbove = p.todoAbove ∨ (q.todoAbove = false ∧ y = p.y - 1))
    : (∃ fi' found, env.checkFloodLine { fi with lines := fi.lines.set c q } y p.lpos p.rpos = .ok (fi', found)
        ∧ Checked env start fi c flag fi' found)
      ∨ (env.checkFloodLine { fi with lines := fi.lines.set c q } y p.lpos p.rpos = .error .wild
        ∧ env.Short start) := by
  have hset := h.set hp huse hqu hseg hnext
  have hpotential := potential_set (q := q) hp
  unfold FillEnv.checkFloodLine
  rcases hset.checkLoop hfits (p.rpos + 1 - p.lpos).toNat p.lpos false
    (h.rows_beside hp huse hy hedge) (by omega) with ⟨fi', row', found, hcheck, hbase, hgrows, hdone, hret⟩ | hshort
  . refine .inl ⟨fi', found, hcheck, ?_⟩
    constructor
    case base => exact ⟨row', hbase⟩
    case closed =>
      apply hclosed.check hp (hqu.trans huse.symm) hseg hgrows
      . rcases hbelow with hsame | ⟨hfalse, heq⟩
        . exact .inl hsame
        . rw [heq] at hdone
          exact .inr ⟨hfalse, hdone⟩
      rcases habove with hsame | ⟨hfalse, heq⟩
      . exact .inl hsame
      . rw [heq] at hdone
        exact .inr ⟨hfalse, hdone⟩
    case drawn => exact hgrows.drawn
    case length =>
      have hlength := hgrows.length
      rwa [List.length_set] at hlength
    case less =>
      left
      have hle := hgrows.potential
      omega
    case quiet =>
      intro hfalse
      exact ⟨p, q, hp, (hret hfalse).2, hflag, hkeeps.1, hkeeps.2⟩
  . exact .inr hshort

theorem Base.checkBelow (hclosed : Closed env fi) (hp : fi.lines[c]? = some p)
    : (∃ fi' found, env.checkBelow fi c p = .ok (fi', found) ∧ Checked env start fi c FloodedLine.todoBelow fi' found)
      ∨ (env.checkBelow fi c p = .error .wild ∧ env.Short start) := by
  unfold FillEnv.checkBelow
  by_cases hflag : p.todoBelow = true
  . rw [if_pos hflag]
    have huse := h.inUse_of_flags hp (by
      unfold FloodedLine.flags
      rw [hflag, Bool.or_true])
    have hedge := (hclosed.edges c p hp).2 hflag
    have hin := ((h.used c p hp huse).1.comp p.lpos (le_refl _) (h.used c p hp huse).1.proper).good.1
    unfold Rect.Mem at hin
    have hy : p.seg.y = p.y := rfl
    rw [hy] at hin
    apply h.checkFlag hfits hclosed { p with todoBelow := false } hp huse huse rfl rfl _ (.inl rfl) (by omega) rfl _
      (.inr ⟨rfl, rfl⟩) (.inl rfl)
    . unfold FloodedLine.todo
      rw [hflag]
      rfl
    . exact ⟨fun hf => hf, fun _ => hflag⟩
  . rw [if_neg hflag]
    rw [Bool.not_eq_true] at hflag
    exact .inl ⟨fi, false, rfl, Checked.skip h hclosed hp hflag⟩

theorem Base.checkAbove (hclosed : Closed env fi) (hp : fi.lines[c]? = some p)
    : (∃ fi' found, env.checkAbove fi c p = .ok (fi', found) ∧ Checked env start fi c FloodedLine.todoAbove fi' found)
      ∨ (env.checkAbove fi c p = .error .wild ∧ env.Short start) := by
  unfold FillEnv.checkAbove
  by_cases hflag : p.todoAbove = true
  . rw [if_pos hflag]
    have huse := h.inUse_of_flags hp (by
      unfold FloodedLine.flags
      rw [hflag, Bool.or_true, Bool.true_or])
    have hedge := (hclosed.edges c p hp).1 hflag
    have hin := ((h.used c p hp huse).1.comp p.lpos (le_refl _) (h.used c p hp huse).1.proper).good.1
    unfold Rect.Mem at hin
    have hy : p.seg.y = p.y := rfl
    rw [hy] at hin
    apply h.checkFlag hfits hclosed { p with todoAbove := false } hp huse huse rfl rfl _ (.inr rfl) (by omega) rfl _
      (.inl rfl) (.inr ⟨rfl, rfl⟩)
    . unfold FloodedLine.todo
      rw [hflag]
      show false.toNat + p.todoBelow.toNat + 1 = true.toNat + p.todoBelow.toNat
      rw [Bool.toNat_false, Bool.toNat_true]
      omega
    . exact ⟨fun _ => hflag, fun hf => hf⟩
  . rw [if_neg hflag]
    rw [Bool.not_eq_true] at hflag
    exact .inl ⟨fi, false, rfl, Checked.skip h hclosed hp hflag⟩

structure Visited (env : FillEnv) (start : Int × Int) (fi : FloodInfo) (c : Nat) (fi' : FloodInfo) (found : Bool)
    (c' : Nat) : Prop where
  base : ∃ row', Base env start fi' row'
  closed : Closed env fi'
  drawn : ∀ s ∈ fi.drawn, s ∈ fi'.drawn
  less : fi'.potential < fi.potential ∨ (found = false ∧ fi' = fi)
  next : found = false → c' = c + 1
  quiet : found = false → ∀ (i : Nat) (p : FloodedLine), fi'.lines[i]? = some p →
    (i = c ∧ p.todoAbove = false ∧ p.todoBelow = false) ∨ (i ≠ c ∧ fi.lines[i]? = some p)

theorem Base.visitLine (hclosed : Closed env fi) (hc : c < fi.lines.length)
    : (∃ fi' found c', env.visitLine fi c = .ok (fi', found, c') ∧ Visited env start fi c fi' found c')
      ∨ (env.visitLine fi c = .error .wild ∧ env.Short start) := by
  have hp : fi.lines[c]? = some fi.lines[c] := List.getElem?_eq_getElem hc
  unfold FillEnv.visitLine
  rw [lineAt_of_lt hp]
  dsimp only
  rcases h.checkBelow hfits hclosed hp with ⟨fi1, below, hbelow, hchecked1⟩ | ⟨hwild, hshort⟩
  . rw [hbelow]
    dsimp only
    have hc1 : c < fi1.lines.length := lt_of_lt_of_le hc hchecked1.length
    have hp1 : fi1.lines[c]? = some fi1.lines[c] := List.getElem?_eq_getElem hc1
    rw [lineAt_of_lt hp1]
    dsimp only
    obtain ⟨row1, hbase1⟩ := hchecked1.base
    rcases hbase1.checkAbove hfits hchecked1.closed hp1 with ⟨fi2, above, habove, hchecked2⟩ | ⟨hwild, hshort⟩
    . rw [habove]
      refine .inl ⟨fi2, below || above, _, rfl, ?_⟩
      constructor
      case base => exact hchecked2.base
      case closed => exact hchecked2.closed
      case drawn => exact fun s hs => hchecked2.drawn s (hchecked1.drawn s hs)
      case less =>
        rcases hchecked1.less with hless1 | ⟨hb, heq1⟩
        . left
          rcases hchecked2.less with hless2 | ⟨_, heq2⟩
          . exact hless2.trans hless1
          . rw [heq2]
            exact hless1
        rw [heq1] at hchecked2
        rcases hchecked2.less with hless2 | ⟨ha, heq2⟩
        . exact .inl hless2
        . exact .inr ⟨by rw [hb, ha]; rfl, heq2⟩
      case next =>
        intro hfalse
        rw [Bool.or_eq_false_iff] at hfalse
        apply if_neg
        rintro ⟨htrue, _⟩
        rw [hfalse.2] at htrue
        cases htrue
      case quiet =>
        intro hfalse i r hr
        rw [Bool.or_eq_false_iff] at hfalse
        obtain ⟨p, q1, _, heq1, hflag1, _⟩ := hchecked1.quiet hfalse.1
        obtain ⟨p1, q2, hpq, heq2, hflag2, _, hkeeps⟩ := hchecked2.quiet hfalse.2
        rw [heq1] at hpq
        rw [List.getElem?_set_self hc] at hpq
        rw [heq2, heq1] at hr
        rw [List.set_set, List.getElem?_set] at hr
        split at hr
        next hci =>
          left
          rw [← Option.some.inj hr]
          refine ⟨hci.symm, hflag2, ?_⟩
          by_contra htrue
          rw [Bool.not_eq_false] at htrue
          have hbelow1 := hkeeps htrue
          rw [← Option.some.inj hpq, hflag1] at hbelow1
          cases hbelow1
        next hci => exact .inr ⟨Ne.symm hci, hr⟩
    . rw [hwild]
      exact .inr ⟨rfl, hshort⟩
  . rw [hwild]
    exact .inr ⟨rfl, hshort⟩

end

structure Finished (env : FillEnv) (start : Int × Int) (fi fi' : FloodInfo) : Prop where
  base : ∃ row', Base env start fi' row'
  closed : Closed env fi'
  drawn : ∀ s ∈ fi.drawn, s ∈ fi'.drawn
  flags : ∀ (i : Nat) (p : FloodedLine), fi'.lines[i]? = some p → p.todoAbove = false ∧ p.todoBelow = false

theorem Finished.of_visited {fi'' : FloodInfo} {c c' : Nat} (h : Visited env start fi c fi' found c')
    (h' : Finished env start fi' fi'') : Finished env start fi fi'' where
  base := h'.base
  closed := h'.closed
  drawn := fun s hs => h'.drawn s (h.drawn s hs)
  flags := h'.flags

def Ends (env : FillEnv) (start : Int × Int) (fi : FloodInfo) (c : Nat) (done : Bool) : Prop :=
  ∃ rounds, (∃ fi', env.floodLoop rounds fi c done = .ok fi' ∧ Finished env start fi fi')
    ∨ (env.floodLoop rounds fi c done = .error .wild ∧ env.Short start)

theorem Ends.of_visited {c c' : Nat} (hc : c < fi.lines.length)
    (hvisit : env.visitLine fi c = .ok (fi', found, c')) (hvisited : Visited env start fi c fi' found c')
    (h : Ends env start fi' c' (done && !found)) : Ends env start fi c done := by
  obtain ⟨rounds, hrun⟩ := h
  refine ⟨rounds + 1, ?_⟩
  unfold FillEnv.floodLoop
  rw [if_pos hc, hvisit]
  rcases hrun with ⟨fi'', hok, hfinished⟩ | hshort
  . exact .inl ⟨fi'', hok, Finished.of_visited hvisited hfinished⟩
  . exact .inr hshort

theorem Ends.of_wild (hc : c < fi.lines.length) (hvisit : env.visitLine fi c = .error .wild)
    (hshort : env.Short start) : Ends env start fi c done := by
  refine ⟨1, .inr ⟨?_, hshort⟩⟩
  unfold FillEnv.floodLoop
  rw [if_pos hc, hvisit]

def Swept (fi : FloodInfo) (c : Nat) (done : Bool) : Prop :=
  done = true → ∀ (i : Nat) (p : FloodedLine), i < c → fi.lines[i]? = some p → p.todoAbove = false ∧ p.todoBelow = false

theorem Swept.next {c c' : Nat} (h : Swept fi c done)
    (hvisited : Visited env start fi c fi' found c') : Swept fi' c' (done && !found) := by
  intro htrue i p hi hp
  rw [Bool.and_eq_true, Bool.not_eq_true'] at htrue
  rw [hvisited.next htrue.2] at hi
  rcases hvisited.quiet htrue.2 i p hp with ⟨_, hflags⟩ | ⟨hic, hold⟩
  . exact hflags
  . exact h htrue.1 i p (by omega) hold

theorem ends_last (h : Base env start fi row) (hclosed : Closed env fi)
    (hswept : Swept fi c done) (hc : ¬c < fi.lines.length) (hagain : done = false → Ends env start fi 0 true)
    : Ends env start fi c done := by
  cases done with
  | true =>
    refine ⟨1, .inl ⟨fi, ?_, ⟨row, h⟩, hclosed, fun _ hs => hs, ?_⟩⟩
    . unfold FillEnv.floodLoop
      rw [if_neg hc, if_pos rfl]
    . intro i p hp
      have hi := (List.getElem?_eq_some_iff.mp hp).1
      exact hswept rfl i p (by omega) hp
  | false =>
    obtain ⟨rounds, hrun⟩ := hagain rfl
    refine ⟨rounds + 1, ?_⟩
    unfold FillEnv.floodLoop
    rw [if_neg hc, if_neg Bool.false_ne_true]
    exact hrun

theorem ends_of_base (hfits : env.Fits start) (left : Nat)
    : ∀ (fi : FloodInfo) (row : Nat → Nat) (c : Nat) (done : Bool), Base env start fi row → Closed env fi →
      Swept fi c done → fi.potential + 3 * ((env.starts start).card : Int) ≤ left → Ends env start fi c done := by
  induction left using Nat.strong_induction_on with
  | _ left ih =>
    -- One pass over the lines, with what comes behind it.
    have hpass : ∀ (done : Bool), (done = false → ∀ (fi : FloodInfo) (row : Nat → Nat), Base env start fi row →
          Closed env fi → fi.potential + 3 * ((env.starts start).card : Int) ≤ left → Ends env start fi 0 true) →
        ∀ (behind : Nat) (fi : FloodInfo) (row : Nat → Nat) (c : Nat), Base env start fi row → Closed env fi →
          Swept fi c done → fi.potential + 3 * ((env.starts start).card : Int) ≤ left →
          fi.lines.length - c ≤ behind → Ends env start fi c done := by
      intro done hagain behind
      induction behind with
      | zero =>
        intro fi row c hbase hclosed hswept hleft hbehind
        exact ends_last hbase hclosed hswept (by omega) fun hdone => hagain hdone fi row hbase hclosed hleft
      | succ behind ihb =>
        intro fi row c hbase hclosed hswept hleft hbehind
        by_cases hc : c < fi.lines.length
        . rcases hbase.visitLine hfits hclosed hc with ⟨fi', found, c', hvisit, hvisited⟩ | ⟨hwild, hshort⟩
          . apply Ends.of_visited hc hvisit hvisited
            have hswept' := hswept.next hvisited
            obtain ⟨row', hbase'⟩ := hvisited.base
            rcases hvisited.less with hless | ⟨hfound, heq⟩
            . have hge := hbase'.potential_ge
              exact ih (left - 1) (by omega) fi' row' c' _ hbase' hvisited.closed hswept' (by omega)
            . have hnext := hvisited.next hfound
              rw [hfound, Bool.not_false, Bool.and_true, heq, hnext] at hswept' ⊢
              exact ihb fi row (c + 1) hbase hclosed hswept' hleft (by omega)
          . exact Ends.of_wild hc hwild hshort
        . exact ends_last hbase hclosed hswept hc fun hdone => hagain hdone fi row hbase hclosed hleft
    have htrue : ∀ (fi : FloodInfo) (row : Nat → Nat) (c : Nat), Base env start fi row → Closed env fi →
        Swept fi c true → fi.potential + 3 * ((env.starts start).card : Int) ≤ left → Ends env start fi c true := by
      intro fi row c hbase hclosed hswept hleft
      exact hpass true (fun hfalse => absurd hfalse (by decide)) _ fi row c hbase hclosed hswept hleft (le_refl _)
    intro fi row c done hbase hclosed hswept hleft
    cases done with
    | true => exact htrue fi row c hbase hclosed hswept hleft
    | false =>
      refine hpass false (fun _ fi row hbase hclosed hleft => ?_) _ fi row c hbase hclosed hswept hleft (le_refl _)
      exact htrue fi row 0 hbase hclosed (fun _ i p hi => absurd hi (Nat.not_lt_zero i)) hleft

theorem floodLoop_mono {rounds more : Nat} (hle : rounds ≤ more) {fi : FloodInfo}
    (h : env.floodLoop rounds fi c done ≠ .error .more)
    : env.floodLoop more fi c done = env.floodLoop rounds fi c done := by
  induction rounds generalizing more fi c done with
  | zero => exact absurd rfl h
  | succ rounds ih =>
    obtain ⟨more, rfl⟩ : ∃ m, more = m + 1 := ⟨more - 1, by omega⟩
    unfold FillEnv.floodLoop at h ⊢
    split
    next hc =>
      rw [if_pos hc] at h
      cases hvisit : env.visitLine fi c with
      | error e => rfl
      | ok result =>
        obtain ⟨fi', found, c'⟩ := result
        rw [hvisit] at h
        exact ih (by omega) h
    next hc =>
      rw [if_neg hc] at h
      split
      next => rfl
      next hdone =>
        rw [if_neg hdone] at h
        exact ih (by omega) h

theorem Finished.mem (h : Finished env start fi fi') (hstart : ∃ s ∈ fi'.drawn, s.Mem start) {p : Int × Int}
    (hp : env.Comp start p) : ∃ s ∈ fi'.drawn, s.Mem p := by
  obtain ⟨row, hbase⟩ := h.base
  obtain ⟨_, hsteps⟩ := hp
  induction hsteps with
  | refl => exact hstart
  | @tail p q _ hstep ih =>
    obtain ⟨s, hs, hmem⟩ := ih
    obtain ⟨hadj, hgood⟩ := hstep
    obtain ⟨i, l, hl, huse, hseg⟩ := (hbase.drawn s).mp hs
    have hrun := (hbase.used i l hl huse).1
    have hflags := h.flags i l hl
    rw [← hseg] at hmem hs
    have hleft : l.lpos ≤ p.1 := hmem.1.1
    have hright : p.1 ≤ l.rpos := hmem.1.2
    have hy : p.2 = l.y := hmem.2
    rcases hadj with ⟨hqy, hqx⟩ | ⟨hqx, hqy⟩
    . refine ⟨l.seg, hs, ?_, hqy.trans hy⟩
      have hq : q = (q.1, l.y) := Prod.ext rfl (hqy.trans hy)
      have hnl : q.1 ≠ l.lpos - 1 := by
        intro heq
        rw [hq, heq] at hgood
        exact hrun.left hgood
      have hnr : q.1 ≠ l.rpos + 1 := by
        intro heq
        rw [hq, heq] at hgood
        exact hrun.right hgood
      show l.lpos ≤ q.1 ∧ q.1 ≤ l.rpos
      omega
    rcases hqy with hbelow | habove
    . have hq : q = (q.1, l.y + 1) := Prod.ext rfl (by omega)
      rw [hq] at hgood ⊢
      exact h.closed.below i l hl huse hflags.2 q.1 (by omega) (by omega) hgood
    . have hq : q = (q.1, l.y - 1) := Prod.ext rfl (by omega)
      rw [hq] at hgood ⊢
      exact h.closed.above i l hl huse hflags.1 q.1 (by omega) (by omega) hgood

def Exact (env : FillEnv) (x y : Int) : Prop :=
  ∃ rounds ret segs, env.floodFillGenerator rounds x y = .ok (ret, segs)
    ∧ (ret = true → segs.Pairwise Segment.Apart ∧ ∀ p, (∃ s ∈ segs, s.Mem p) ↔ env.Comp (x, y) p)
    ∧ (ret = false → env.grants env.rows = false)

def Provided (env : FillEnv) (x y : Int) : Prop :=
  env.grants env.rows = false ∨ (env.Fits (x, y) ∧ ¬env.Short (x, y))

variable {env : FillEnv} {x y : Int}

def blankInfo (env : FillEnv) (y : Int) : FloodInfo :=
  ⟨List.replicate env.rows (FillEnv.blankLine y), []⟩

variable {p : FloodedLine}

theorem getElem?_blank {i : Nat} (hp : (blankInfo env y).lines[i]? = some p)
    : i < env.rows ∧ p = FillEnv.blankLine y := by
  unfold blankInfo at hp
  rw [List.getElem?_replicate] at hp
  split at hp
  next hi => exact ⟨hi, (Option.some.inj hp).symm⟩
  next => cases hp

theorem base_blank (env : FillEnv) (start : Int × Int) (y : Int) : Base env start (blankInfo env y) id where
  linked := {
    heads := by
      unfold blankInfo
      rw [List.length_replicate]
    head := fun _ _ => rfl
    inside := by
      intro i hi
      unfold blankInfo at hi
      rwa [List.length_replicate] at hi
    next := by
      intro i p hp
      obtain ⟨hi, heq⟩ := getElem?_blank hp
      left
      rw [heq]
      refine ⟨rfl, ?_⟩
      intro j hj
      have hrow : j = i := hj.2.2
      have hlt := hj.1
      omega
  }
  used := by
    intro i p hp huse
    rw [(getElem?_blank hp).2] at huse
    cases huse
  unused := by
    intro i p hp _
    obtain ⟨hi, heq⟩ := getElem?_blank hp
    rw [heq]
    exact ⟨hi, rfl, show (-32768 : Int) < 32767 by decide, rfl⟩
  drawn := by
    intro s
    apply iff_of_false
    . exact List.not_mem_nil
    . rintro ⟨i, p, hp, huse, _⟩
      rw [(getElem?_blank hp).2] at huse
      cases huse
  apart := List.Pairwise.nil
  count := by
    unfold blankInfo
    rw [List.length_replicate]
    rfl
  granted := by
    intro i h1 h2
    unfold blankInfo at h2
    rw [List.length_replicate] at h2
    omega

theorem closed_blank (env : FillEnv) (y : Int) : Closed env (blankInfo env y) where
  below := by
    intro i p hp huse
    rw [(getElem?_blank hp).2] at huse
    cases huse
  above := by
    intro i p hp huse
    rw [(getElem?_blank hp).2] at huse
    cases huse
  edges := by
    intro i p hp
    rw [(getElem?_blank hp).2]
    constructor
    . intro hflag
      cases hflag
    . intro hflag
      cases hflag

theorem Closed.grows {fi fi' : FloodInfo} (h : Closed env fi) (hp : fi.lines[0]? = some p)
    (hg : Grows env fi fi') : Closed env fi' := by
  refine h.check hp rfl rfl ?_ (.inl rfl) (.inl rfl)
  rw [set_self hp]
  exact hg

theorem Finished.not_short {start : Int × Int} {fi fi' : FloodInfo} (h : Finished env start fi fi')
    (hall : ∀ p, env.Comp start p → ∃ s ∈ fi'.drawn, s.Mem p) : ¬env.Short start := by
  rintro ⟨i, h1, h2, hgrants⟩
  obtain ⟨row, hbase⟩ := h.base
  have hcount := hbase.count
  have heq := FillEnv.length_add_eq (fun s hs => hbase.run_of_drawn hs) hbase.apart hall
  unfold FillEnv.total at h2
  rw [hbase.granted i h1 (by omega)] at hgrants
  cases hgrants

theorem floodFillGenerator_eq (hmem : env.dstRc.Mem x y) (hgrants : env.grants env.rows = true) (rounds : Nat)
    : env.floodFillGenerator rounds x y
        = (env.flooder (blankInfo env y) x y).bind fun r =>
            (env.floodLoop rounds r.1 0 true).bind fun fi => .ok (true, fi.drawn) := by
  unfold FillEnv.floodFillGenerator
  rw [if_neg (by unfold Rect.Mem at hmem; omega), if_pos hgrants]
  unfold blankInfo
  cases env.flooder ⟨List.replicate env.rows (FillEnv.blankLine y), []⟩ x y with
  | error e => rfl
  | ok r =>
    dsimp only [Except.bind]
    cases env.floodLoop rounds r.1 0 true with
    | error e => rfl
    | ok fi => rfl

theorem fill_ends (hmem : env.dstRc.Mem x y) (hgrants : env.grants env.rows = true) (hfits : env.Fits (x, y))
    : (∃ rounds segs, env.floodFillGenerator rounds x y = .ok (true, segs) ∧ segs.Pairwise Segment.Apart
        ∧ (∀ p, (∃ s ∈ segs, s.Mem p) ↔ env.Comp (x, y) p) ∧ ¬env.Short (x, y))
      ∨ (∃ rounds, env.floodFillGenerator rounds x y = .error .wild ∧ env.Short (x, y)) := by
  have hrows : 0 < env.rows := by
    have hr := row_eq hmem
    omega
  have hcomp : env.equalPixel x y = true → env.Comp (x, y) (x, y) :=
    fun hequal => ⟨⟨hmem, hequal⟩, Relation.ReflTransGen.refl⟩
  rcases (base_blank env (x, y) y).flooder hfits hmem hcomp (fun t ht => absurd ht List.not_mem_nil) with
    ⟨fi, row, next, hflood, hbase, hgrows, hnext, hdone⟩ | ⟨hwild, hshort⟩
  . have hfirst : (blankInfo env y).lines[0]? = some (FillEnv.blankLine y) := by
      unfold blankInfo
      rw [List.getElem?_replicate, if_pos hrows]
    have hclosed := (closed_blank env y).grows hfirst hgrows
    have hswept : Swept fi 0 true := fun _ i p hi => absurd hi (Nat.not_lt_zero i)
    obtain ⟨rounds, hrun⟩ := ends_of_base hfits _ fi row 0 true hbase hclosed hswept (Int.self_le_toNat _)
    rcases hrun with ⟨fi', hok, hfinished⟩ | ⟨hwild, hshort⟩
    . have hall : ∀ p, env.Comp (x, y) p → ∃ s ∈ fi'.drawn, s.Mem p := by
        intro p hp
        obtain ⟨s, hs, hsmem⟩ := hdone x (le_refl _) hnext hp.1
        exact hfinished.mem ⟨s, hfinished.drawn s hs, hsmem⟩ hp
      obtain ⟨row', hbase'⟩ := hfinished.base
      left
      refine ⟨rounds, fi'.drawn, ?_, hbase'.apart, ?_, hfinished.not_short hall⟩
      . rw [floodFillGenerator_eq hmem hgrants, hflood]
        show (env.floodLoop rounds fi 0 true).bind _ = _
        rw [hok]
        rfl
      intro p
      constructor
      . rintro ⟨s, hs, hsmem⟩
        exact (hbase'.run_of_drawn hs).comp_of_mem hsmem
      . exact hall p
    right
    refine ⟨rounds, ?_, hshort⟩
    rw [floodFillGenerator_eq hmem hgrants, hflood]
    show (env.floodLoop rounds fi 0 true).bind _ = _
    rw [hwild]
    rfl
  . right
    refine ⟨0, ?_, hshort⟩
    rw [floodFillGenerator_eq hmem hgrants, hwild]
    rfl

theorem floodFillGenerator_mono {rounds more : Nat} (hle : rounds ≤ more)
    (h : env.floodFillGenerator rounds x y ≠ .error .more)
    : env.floodFillGenerator more x y = env.floodFillGenerator rounds x y := by
  unfold FillEnv.floodFillGenerator at h ⊢
  split
  next => rfl
  next hinside =>
    rw [if_neg hinside] at h
    split
    next hgrants =>
      rw [if_pos hgrants] at h
      cases hflood : env.flooder ⟨List.replicate env.rows (FillEnv.blankLine y), []⟩ x y with
      | error e => rfl
      | ok result =>
        obtain ⟨fi, next⟩ := result
        rw [hflood] at h
        dsimp only at h ⊢
        rw [floodLoop_mono hle]
        intro heq
        rw [heq] at h
        exact h rfl
    next => rfl

theorem not_exact_of_wild {rounds : Nat} (h : env.floodFillGenerator rounds x y = .error .wild) : ¬Exact env x y := by
  rintro ⟨rounds', ret, segs, hok, _⟩
  have h1 := @floodFillGenerator_mono env x y _ _ (le_max_left rounds rounds') (by
    rw [h]
    intro heq
    cases heq)
  have h2 := @floodFillGenerator_mono env x y _ _ (le_max_right rounds rounds') (by
    rw [hok]
    intro heq
    cases heq)
  rw [h1, h, hok] at h2
  cases h2

theorem not_comp_of_outside (h : ¬env.dstRc.Mem x y) (p : Int × Int) : ¬env.Comp (x, y) p :=
  fun hcomp => h hcomp.1.1

/--
The fill is exact if the first array cannot be had, or if everything fits a `short` and there is memory for all lines.
Where everything fits a `short` it is not exact otherwise.
-/
theorem floodFill_exact (env : FillEnv) (x y : Int)
    : (Provided env x y → Exact env x y) ∧ (env.Fits (x, y) → Exact env x y → Provided env x y) := by
  by_cases hmem : env.dstRc.Mem x y
  . cases hgrants : env.grants env.rows with
    | false =>
      refine ⟨fun _ => ⟨0, false, [], ?_, fun hfalse => absurd hfalse (by decide), fun _ => hgrants⟩,
        fun _ _ => Or.inl hgrants⟩
      unfold FillEnv.floodFillGenerator
      rw [if_neg (by unfold Rect.Mem at hmem; omega), hgrants, if_neg Bool.false_ne_true]
    | true =>
      constructor
      . rintro (hfalse | ⟨hfits, hmemory⟩)
        . rw [hgrants] at hfalse
          cases hfalse
        . rcases fill_ends hmem hgrants hfits with ⟨rounds, segs, hok, hapart, hcomp, _⟩ | ⟨_, _, hshort⟩
          . exact ⟨rounds, true, segs, hok, fun _ => ⟨hapart, hcomp⟩, fun hfalse => absurd hfalse (by decide)⟩
          . exact absurd hshort hmemory
      intro hfits hexact
      rcases fill_ends hmem hgrants hfits with ⟨_, _, _, _, _, hmemory⟩ | ⟨rounds, hwild, _⟩
      . exact .inr ⟨hfits, hmemory⟩
      . exact absurd hexact (not_exact_of_wild hwild)
  have hnone := FillEnv.starts_eq_empty (not_comp_of_outside hmem)
  constructor
  . intro _
    refine ⟨0, true, [], ?_, fun _ => ⟨List.Pairwise.nil, ?_⟩, fun hfalse => absurd hfalse (by decide)⟩
    . unfold FillEnv.floodFillGenerator
      rw [if_pos (by unfold Rect.Mem at hmem; omega)]
    intro p
    apply iff_of_false
    . rintro ⟨s, hs, _⟩
      exact List.not_mem_nil hs
    . exact not_comp_of_outside hmem p
  intro hfits _
  refine .inr ⟨hfits, ?_⟩
  rintro ⟨i, h1, h2, _⟩
  unfold FillEnv.total at h2
  rw [hnone, Finset.image_empty, Finset.card_empty] at h2
  omega

def cup : FillEnv :=
  {
    dstRc := ⟨0, 0, 3, 2⟩
    equalPixel := fun x y => decide (y = 1 ∨ x ≠ 1)
    grants := fun count => decide (count ≤ 2)
  }

theorem not_floodFill_exact
    : ¬∀ (env : FillEnv) (x y : Int), env.dstRc.Mem x y → Exact env x y := by
  intro h
  have hwild : cup.floodFillGenerator 5 1 1 = .error .wild := by
    decide
  exact not_exact_of_wild hwild (h cup 1 1 (by decide))

end Flood

end MiniGui
