import MiniGui.Gdi.ClipCalls

namespace MiniGui.WndTree

open List Option Chain

variable {ι : Type}

abbrev parent (tree : WndTree ι) (h : ι) : Option ι :=
  (tree.wnd h).pParent

structure Valid (tree : WndTree ι) : Prop where
  chain : ∀ h, ∃ l, Linked tree.parent (tree.parent h) l ∧ l.length ≤ tree.nrWnds
  mainWin : ∀ h l, (tree.wnd h).isControl = true → Linked tree.parent (tree.parent h) l →
    l.getLast? = some (tree.wnd h).pMainWin
  hasChildren : ∀ h p, tree.parent h = some p → (tree.wnd p).children ≠ none
  firstChild : ∀ p c, (tree.wnd p).children = some c → tree.parent c = some p

def ancestorsLoop (tree : WndTree ι) (fuel : Nat) (pParent : Option ι) : List ι :=
  match fuel, pParent with
  | fuel + 1, some p => p :: tree.ancestorsLoop fuel (tree.wnd p).pParent
  | _, _ => []

def ancestors (tree : WndTree ι) (h : ι) : List ι :=
  tree.ancestorsLoop tree.nrWnds (tree.wnd h).pParent

variable {tree : WndTree ι} {h root : ι} {p : Option ι} {l pre post : List ι} {rc : Rect} {fuel : Nat}

theorem ancestorsLoop_eq (hl : Linked tree.parent p l) (hlen : l.length ≤ fuel)
    : tree.ancestorsLoop fuel p = l := by
  induction l generalizing p fuel with
  | nil =>
    rw [linked_nil] at hl
    rw [hl]
    cases fuel <;> rfl
  | cons a l ih =>
    rw [linked_cons] at hl
    rw [hl.1]
    cases fuel with
    | zero => simp at hlen
    | succ fuel =>
      rw [length_cons] at hlen
      rw [ancestorsLoop]
      rw [ih hl.2 (by omega)]

theorem Valid.ancestors (hv : tree.Valid) (h : ι)
    : Linked tree.parent (tree.parent h) (tree.ancestors h) ∧ (tree.ancestors h).length ≤ tree.nrWnds := by
  rcases hv.chain h with ⟨l, hl, hlen⟩
  have heq : tree.ancestors h = l := ancestorsLoop_eq hl hlen
  rw [heq]
  exact ⟨hl, hlen⟩

theorem addParents_eq (hl : Linked tree.parent p l) (hlen : l.length ≤ fuel)
    : tree.addParents fuel p rc
        = offsetRect rc (l.map (fun a => (tree.wnd a).cl)).sum (l.map (fun a => (tree.wnd a).ct)).sum := by
  induction l generalizing p fuel rc with
  | nil =>
    rw [linked_nil] at hl
    rw [hl]
    cases fuel <;> simp [addParents, offsetRect]
  | cons a l ih =>
    rw [linked_cons] at hl
    rw [hl.1]
    cases fuel with
    | zero => simp at hlen
    | succ fuel =>
      rw [length_cons] at hlen
      rw [addParents, ih hl.2 (by omega)]
      unfold offsetRect
      simp only [map_cons, sum_cons, Rect.mk.injEq]
      omega

theorem wndClientRect_eq (hl : Linked tree.parent (tree.parent root) post) (hlen : post.length ≤ tree.nrWnds)
    : tree.wndClientRect (some root)
        = offsetRect
            ⟨(tree.wnd root).cl, (tree.wnd root).ct, (tree.wnd root).cr, (tree.wnd root).cb⟩
            (post.map (fun a => (tree.wnd a).cl)).sum (post.map (fun a => (tree.wnd a).ct)).sum :=
  addParents_eq hl hlen

theorem zero_pixels : Rect.zero.pixels = ∅ := by
  apply Rect.pixels_eq_empty
  simp [Rect.Proper, Rect.zero]

variable [DecidableEq ι]

theorem childTowards_eq (hv : tree.Valid) (hl : Linked tree.parent (tree.parent h) (pre ++ root :: post))
    (hfuel : pre.length < fuel) : tree.childTowards root fuel h = some (pre.getLast?.getD h) := by
  induction pre generalizing h fuel with
  | nil =>
    rw [nil_append, linked_cons] at hl
    cases fuel with
    | zero => simp at hfuel
    | succ fuel =>
      have hparent : (tree.wnd h).pParent = some root := hl.1
      rw [childTowards, hparent]
      simp
  | cons a pre ih =>
    have hnodup := hl.nodup
    rw [cons_append, linked_cons] at hl
    rw [cons_append, nodup_cons] at hnodup
    cases fuel with
    | zero => simp at hfuel
    | succ fuel =>
      rw [length_cons] at hfuel
      have hparent : (tree.wnd h).pParent = some a := hl.1
      -- Two windows with the same first child would be the same window.
      have hother : ¬(tree.wnd root).children = (tree.wnd a).children := by
        intro heq
        have hsome := hv.hasChildren h a hl.1
        rw [ne_none_iff_exists'] at hsome
        rcases hsome with ⟨c, hc⟩
        have ha := hv.firstChild a c hc
        rw [hc] at heq
        have hroot := hv.firstChild root c heq
        rw [ha, Option.some.injEq] at hroot
        apply hnodup.1
        rw [hroot]
        simp
      rw [childTowards, hparent]
      dsimp only
      rw [if_neg hother, ih hl.2 (by omega)]
      cases pre with
      | nil => rfl
      | cons b pre =>
        rw [List.getLast?_cons, List.getLast?_cons, getD_some, List.getLast?_cons, getD_some]
        rfl

theorem inter_pixels_eq_empty {a b : Rect} (hno : (!(intersectRect a b).1) = true) : a.pixels ∩ b.pixels = ∅ := by
  rw [← intersectRect_pixels]
  apply Rect.pixels_eq_empty
  intro hproper
  rw [intersectRect_proper.mpr hproper] at hno
  simp at hno

theorem restrictLoop_spec (hv : tree.Valid)
    (hl : Linked tree.parent (tree.parent h) (pre ++ root :: post))
    (hlen : (pre ++ root :: post).length ≤ tree.nrWnds) (hfuel : pre.length < fuel) (minimal : Rect)
    : ∃ m,
        tree.restrictLoop h fuel root (post.map (fun a => (tree.wnd a).cl)).sum
          (post.map (fun a => (tree.wnd a).ct)).sum minimal = some m
          ∧ m.pixels = minimal.pixels ∩ { p | ∀ a ∈ pre ++ [root], p ∈ (tree.wndClientRect (some a)).pixels } := by
  induction hn : pre.length generalizing pre root post fuel minimal with
  | zero =>
    rw [length_eq_zero_iff] at hn
    rw [hn, nil_append, linked_cons] at hl
    rw [hn] at hfuel hlen ⊢
    cases fuel with
    | zero => simp at hfuel
    | succ fuel =>
      have hparent : (tree.wnd h).pParent = some root := hl.1
      have hclient := wndClientRect_eq hl.2 (by simp at hlen; omega)
      unfold offsetRect at hclient
      rw [restrictLoop]
      rw [← hclient]
      simp only [nil_append, mem_singleton, forall_eq]
      split
      . next hno =>
        refine ⟨.zero, rfl, ?_⟩
        have hempty := inter_pixels_eq_empty hno
        have hset : { p : Int × Int | p ∈ (tree.wndClientRect (some root)).pixels }
            = (tree.wndClientRect (some root)).pixels := rfl
        rw [hset, hempty]
        exact zero_pixels
      . exact ⟨_, rfl, intersectRect_pixels _ _⟩
  | succ n ih =>
    cases fuel with
    | zero => simp at hfuel
    | succ fuel =>
      -- The next root is the last window before this one.
      rcases eq_nil_or_concat pre with hnil | ⟨pre', next, hpre⟩
      . rw [hnil] at hn
        simp at hn
      rw [concat_eq_append] at hpre
      have hl' : Linked tree.parent (tree.parent h) (pre' ++ next :: (root :: post)) := by
        rw [hpre] at hl
        simpa using hl
      have hrootchain : Linked tree.parent (tree.parent root) post := by
        rw [Linked, seg_append] at hl
        rcases hl with ⟨mid, _, hroot⟩
        exact hroot.2
      have hpostlen : post.length ≤ tree.nrWnds := by
        rw [length_append, length_cons] at hlen
        omega
      have hclient := wndClientRect_eq hrootchain hpostlen
      unfold offsetRect at hclient
      have hprelen : pre.length = pre'.length + 1 := by
        rw [hpre]
        simp
      have hnotparent : ¬(tree.wnd h).pParent = some root := by
        intro hroot
        have hnodup := hl.nodup
        cases pre with
        | nil => simp at hn
        | cons a pre =>
          rw [cons_append, linked_cons] at hl
          have hhead : tree.parent h = some root := hroot
          rw [hl.1, Option.some.injEq] at hhead
          rw [cons_append, nodup_cons] at hnodup
          apply hnodup.1
          rw [hhead]
          simp
      have hchild : tree.childTowards root tree.nrWnds h = some next := by
        rw [childTowards_eq hv hl (by rw [length_append, length_cons] at hlen; omega), hpre]
        simp
      rw [restrictLoop]
      rw [← hclient]
      split
      . next hno =>
        refine ⟨.zero, rfl, ?_⟩
        have hempty := inter_pixels_eq_empty hno
        rw [zero_pixels]
        symm
        rw [Set.eq_empty_iff_forall_notMem] at hempty ⊢
        intro p hp
        apply hempty p
        exact ⟨hp.1, hp.2 root (by simp)⟩
      rw [hchild]
      have hlen' : (pre' ++ next :: (root :: post)).length ≤ tree.nrWnds := by
        rw [hpre] at hlen
        simpa using hlen
      have hrest := ih hl' hlen' (by omega : pre'.length < fuel)
        (intersectRect minimal (tree.wndClientRect (some root))).2 (by omega)
      rcases hrest with ⟨m, hm, hpixels⟩
      refine ⟨m, ?_, ?_⟩
      . rw [← hm]
        simp only [map_cons, sum_cons]
        rw [Int.add_comm _ (tree.wnd root).cl, Int.add_comm _ (tree.wnd root).ct]
      rw [hpixels, intersectRect_pixels, hpre]
      ext p
      simp only [Set.mem_inter_iff, Set.mem_ofPred_eq, mem_append, mem_singleton, or_imp, forall_and,
        forall_eq]
      tauto

theorem restrictControlECRGN_spec (hv : tree.Valid) (hctrl : (tree.wnd h).isControl = true) (minimal : Rect)
    : ∃ m,
        tree.restrictControlECRGN minimal h = some m
          ∧ m.pixels = minimal.pixels ∩ { p | ∀ a ∈ tree.ancestors h, p ∈ (tree.wndClientRect (some a)).pixels } := by
  have hchain := hv.ancestors h
  have hlast := hv.mainWin h _ hctrl hchain.1
  rw [getLast?_eq_some_iff] at hlast
  rcases hlast with ⟨pre, hpre⟩
  rw [hpre] at hchain ⊢
  apply restrictLoop_spec hv hchain.1 hchain.2
  rw [length_append] at hchain
  simp at hchain
  omega

end MiniGui.WndTree
