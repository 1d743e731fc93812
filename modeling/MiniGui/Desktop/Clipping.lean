import MiniGui.Desktop.ZOrderStore
import MiniGui.Gdi.ClipRects

namespace MiniGui

open List Chain DList

def ptInRect (prc : Rect) (x y : Int) : Bool :=
  x ≥ prc.left && x < prc.right && y ≥ prc.top && y < prc.bottom

structure GCRInfo where
  crgn : ClipRgn
  age : Nat
  oldZiAge : Nat

def dskInitGCRInfo (rcScr rcWin : Rect) : GCRInfo :=
  { crgn := (setClipRgn emptyClipRgn (intersectRect rcWin rcScr).2).2, age := 0, oldZiAge := 0 }

namespace ZOrderInfo

def scan (zi : ZOrderInfo) (stop : Int → Bool) (f : Int → ClipRgn → ClipRgn) (fuel : Nat) (slot : Int)
    (crgn : ClipRgn)
    : ClipRgn :=
  match fuel with
  | 0 => crgn
  | fuel + 1 =>
    if stop slot then crgn else scan zi stop f fuel (zi.nodes slot).next (f slot crgn)

def recalcGcrinfo (zi : ZOrderInfo) (slot : Int) (crgn : ClipRgn) : ClipRgn :=
  if (zi.nodes slot).visible then (subtractClipRect crgn (zi.nodes slot).rc).2 else crgn

def recalcAll (zi : ZOrderInfo) (t : ZType) (crgn : ClipRgn) : ClipRgn :=
  zi.scan Work.atEnd zi.recalcGcrinfo (zi.maxNrNodes + 1) (zi.first t) crgn

def lockRecalcGcrinfo (zi : ZOrderInfo) (rcScr : Rect) (idx : Int) (gcrinfo : GCRInfo) : GCRInfo :=
  let node := zi.nodes idx
  if gcrinfo.oldZiAge = node.age then
    gcrinfo
  else
    let crgn := (setClipRgn gcrinfo.crgn (intersectRect node.rc rcScr).2).2
    -- clip by popup menus
    let crgn :=
      (List.range zi.nrPopupmenus.toNat).foldl
        (fun crgn (i : Nat) => (subtractClipRect crgn (zi.menuNodes i).rc).2) crgn
    let (crgn, slot) :=
      if node.type = ZOF_TYPE_NORMAL then
        (zi.recalcAll .topmost (zi.recalcAll .global crgn), zi.first .normal)
      else if node.type = ZOF_TYPE_TOPMOST then
        (zi.recalcAll .global crgn, zi.first .topmost)
      else if node.type = ZOF_TYPE_GLOBAL then
        (crgn, zi.first .global)
      else if node.type = ZOF_TYPE_DESKTOP then
        (zi.recalcAll .normal (zi.recalcAll .topmost (zi.recalcAll .global crgn)), 0)
      else
        (crgn, 0)
    let crgn :=
      zi.scan (fun slot => slot = 0 || slot = idx) zi.recalcGcrinfo (zi.maxNrNodes + 1) slot crgn
    { crgn, oldZiAge := node.age, age := gcrinfo.age + 1 }

def findAtPoint (zi : ZOrderInfo) (x y : Int) (fuel : Nat) (slot : Int) : Int :=
  match fuel with
  | 0 => 0
  | fuel + 1 =>
    if slot > 0 then
      if (zi.nodes slot).visible && ptInRect (zi.nodes slot).rc x y then
        slot
      else
        findAtPoint zi x y fuel (zi.nodes slot).next
    else
      slot

def getZnodeAtPoint (zi : ZOrderInfo) (x y : Int) : Int :=
  let fuel := zi.maxNrNodes + 1
  let slot := zi.findAtPoint x y fuel (zi.first .global)
  if slot > 0 then
    slot
  else
    let slot := zi.findAtPoint x y fuel (zi.first .topmost)
    if slot > 0 then slot else zi.findAtPoint x y fuel (zi.first .normal)

def follow (zi : ZOrderInfo) (fuel : Nat) (slot : Int) : List Int :=
  match fuel with
  | 0 => []
  | fuel + 1 => if slot = 0 then [] else slot :: follow zi fuel (zi.nodes slot).next

def slots (zi : ZOrderInfo) (t : ZType) : List Int :=
  zi.follow (zi.maxNrNodes + 1) (zi.first t)

def stack (zi : ZOrderInfo) : List Int :=
  zi.slots .global ++ zi.slots .topmost ++ zi.slots .normal

def above (zi : ZOrderInfo) (slot : Int) : List Int :=
  zi.stack.takeWhile (fun a => a ≠ slot)

def covered (zi : ZOrderInfo) (slot : Int) : Set (Int × Int) :=
  { p | (∃ i < zi.nrPopupmenus.toNat, p ∈ (zi.menuNodes i).rc.pixels)
    ∨ ∃ a ∈ zi.above slot, (zi.nodes a).visible = true ∧ p ∈ (zi.nodes a).rc.pixels }

def visibleRegion (zi : ZOrderInfo) (rcScr : Rect) (slot : Int) : Set (Int × Int) :=
  ((zi.nodes slot).rc.pixels ∩ rcScr.pixels) \ zi.covered slot

open Store

def flagOf : ZType → BitVec 32
  | .global => ZOF_TYPE_GLOBAL
  | .topmost => ZOF_TYPE_TOPMOST
  | .normal => ZOF_TYPE_NORMAL

theorem eq_flagOf {type : BitVec 32} {t : ZType} (h : chainOf type = some t) : type = flagOf t := by
  unfold chainOf at h
  grind [flagOf]

variable {zi : ZOrderInfo} {c : ZType → List Int} {t : ZType} {slot : Int} {fuel : Nat}

theorem slots_eq (h : Chains zi.store c) : zi.slots t = c t := by
  have hfollow : ∀ (l : List Int) (slot : Int) (fuel : Nat),
      Linked (fun a => DList.link 0 (zi.nodes a).next) (DList.link 0 slot) l → l.length < fuel →
      zi.follow fuel slot = l := by
    intro l
    induction l with
    | nil =>
      intro slot fuel hl hfuel
      rw [linked_nil, link_eq_none] at hl
      cases fuel with
      | zero => simp at hfuel
      | succ fuel => rw [follow, if_pos hl]
    | cons a l ih =>
      intro slot fuel hl hfuel
      rw [linked_cons, link_eq_some] at hl
      cases fuel with
      | zero => simp at hfuel
      | succ fuel =>
        rw [follow, hl.1.1, if_neg hl.1.2, ih _ _ hl.2]
        rw [length_cons] at hfuel
        omega
  apply hfollow
  . exact (h.valid t).forward
  . have hle : (c t).length ≤ zi.maxNrNodes := h.length_le
    omega

variable {l : List Int} {idx : Int} {rcScr : Rect} {gcrinfo : GCRInfo}

theorem scan_eq {stop : Int → Bool} {f : Int → ClipRgn → ClipRgn} {crgn : ClipRgn}
    (hstop : stop 0 = true) (hl : Linked (fun a => DList.link 0 (zi.nodes a).next) (DList.link 0 slot) l)
    (hfuel : l.length < fuel) : zi.scan stop f fuel slot crgn
        = (l.takeWhile (fun a => !stop a)).foldl (fun crgn a => f a crgn) crgn := by
  induction l generalizing slot fuel crgn with
  | nil =>
    rw [linked_nil, link_eq_none] at hl
    cases fuel with
    | zero => simp at hfuel
    | succ fuel =>
      rw [scan, hl, if_pos hstop]
      rfl
  | cons a l ih =>
    rw [linked_cons, link_eq_some] at hl
    cases fuel with
    | zero => simp at hfuel
    | succ fuel =>
      rw [length_cons] at hfuel
      rw [scan, hl.1.1]
      by_cases ha : stop a = true
      . rw [if_pos ha, takeWhile_cons_of_neg (by simp [ha])]
        rfl
      . rw [if_neg ha, takeWhile_cons_of_pos (by simp [ha]), foldl_cons]
        apply ih hl.2
        omega

section

variable (h : Chains zi.store c)
include h

theorem recalcAll_eq (t : ZType) (crgn : ClipRgn)
    : zi.recalcAll t crgn = (c t).foldl (fun crgn a => zi.recalcGcrinfo a crgn) crgn := by
  have hle : (c t).length ≤ zi.maxNrNodes := h.length_le
  have hall : (c t).takeWhile (fun a => !Work.atEnd a) = c t := by
    rw [takeWhile_eq_self_iff]
    intro a ha
    have hpos := h.pos ha
    simp only [Work.atEnd, Bool.not_eq_true', decide_eq_false_iff_not]
    omega
  have hforward : Linked (fun a => DList.link 0 (zi.nodes a).next) (DList.link 0 (zi.first t)) (c t) :=
    (h.valid t).forward
  unfold recalcAll
  rw [scan_eq (by decide) hforward (by omega), hall]

theorem recalcUpTo_eq (t : ZType) (idx : Int) (crgn : ClipRgn)
    : zi.scan (fun slot => slot = 0 || slot = idx) zi.recalcGcrinfo (zi.maxNrNodes + 1) (zi.first t) crgn
        = ((c t).takeWhile (fun a => a ≠ idx)).foldl (fun crgn a => zi.recalcGcrinfo a crgn) crgn := by
  have hle : (c t).length ≤ zi.maxNrNodes := h.length_le
  have hforward : Linked (fun a => DList.link 0 (zi.nodes a).next) (DList.link 0 (zi.first t)) (c t) :=
    (h.valid t).forward
  have hcongr : (c t).takeWhile (fun a => !(a = 0 || a = idx)) = (c t).takeWhile (fun a => a ≠ idx) := by
    have hne : ∀ a ∈ c t, a ≠ 0 := by
      intro a ha
      have hpos := h.pos ha
      omega
    generalize c t = l at hne
    induction l with
    | nil => rfl
    | cons a l ih =>
      rw [takeWhile_cons, takeWhile_cons, ih (fun b hb => hne b (mem_cons_of_mem a hb))]
      simp [hne a mem_cons_self]
  rw [scan_eq (by simp) hforward (by omega), hcongr]

theorem stack_eq : zi.stack = c .global ++ c .topmost ++ c .normal := by
  unfold stack
  rw [slots_eq h, slots_eq h, slots_eq h]

theorem mem_stack : slot ∈ zi.stack ↔ ∃ t, slot ∈ c t := by
  rw [stack_eq h, mem_append, mem_append]
  constructor
  . rintro ((hg | ht) | hn)
    . exact ⟨_, hg⟩
    . exact ⟨_, ht⟩
    . exact ⟨_, hn⟩
  rintro ⟨t, ht⟩
  cases t with
  | global => exact .inl (.inl ht)
  | topmost => exact .inl (.inr ht)
  | normal => exact .inr ht

theorem nodup_stack : zi.stack.Nodup := by
  rw [stack_eq h, nodup_append, nodup_append]
  refine ⟨⟨(h.valid _).nodup, (h.valid _).nodup, ?_⟩, (h.valid _).nodup, ?_⟩
  . intro a ha b hb heq
    rw [heq] at ha
    have hne := h.disjoint ha hb
    simp at hne
  intro a ha b hb heq
  rw [heq] at ha
  rw [mem_append] at ha
  rcases ha with hg | ht
  . have hne := h.disjoint hg hb
    simp at hne
  . have hne := h.disjoint ht hb
    simp at hne

end

theorem takeWhile_ne_append {m : List Int} (hl : slot ∉ l)
    : (l ++ m).takeWhile (fun a => a ≠ slot) = l ++ m.takeWhile (fun a => a ≠ slot) := by
  apply takeWhile_append_of_pos
  intro a ha
  rw [decide_eq_true_eq]
  intro heq
  rw [heq] at ha
  exact hl ha

theorem takeWhile_ne_append_of_mem {m : List Int} (hl : slot ∈ l)
    : (l ++ m).takeWhile (fun a => a ≠ slot) = l.takeWhile (fun a => a ≠ slot) := by
  induction l with
  | nil => simp at hl
  | cons a l ih =>
    rw [cons_append]
    by_cases ha : a = slot
    . rw [takeWhile_cons_of_neg (by simp [ha]), takeWhile_cons_of_neg (by simp [ha])]
    rw [mem_cons] at hl
    rw [takeWhile_cons_of_pos (by simp [ha]), takeWhile_cons_of_pos (by simp [ha]), ih]
    rcases hl with heq | hmem
    . exact absurd heq.symm ha
    . exact hmem

theorem above_eq (h : Chains zi.store c) : zi.above slot
        =
      match chainOf (zi.nodes slot).type with
      | some .global => (c .global).takeWhile (fun a => a ≠ slot)
      | some .topmost => c .global ++ (c .topmost).takeWhile (fun a => a ≠ slot)
      | some .normal => c .global ++ c .topmost ++ (c .normal).takeWhile (fun a => a ≠ slot)
      | none => c .global ++ c .topmost ++ c .normal := by
  have hmem : ∀ t, slot ∈ c t ↔ chainOf (zi.nodes slot).type = some t := fun t => (h.type slot t).symm
  unfold above
  rw [stack_eq h]
  cases htype : chainOf (zi.nodes slot).type with
  | none =>
    have hnot : ∀ t, slot ∉ c t := by
      intro t
      rw [hmem, htype]
      simp
    rw [append_assoc, takeWhile_ne_append (hnot _), takeWhile_ne_append (hnot _)]
    have hall := takeWhile_ne_append (m := []) (hnot .normal)
    rw [takeWhile_nil, append_nil] at hall
    rw [hall, append_assoc]
  | some t =>
    have hnot : ∀ t', t' ≠ t → slot ∉ c t' := by
      intro t' hne
      rw [hmem, htype, Option.some.injEq]
      exact hne.symm
    have hin : slot ∈ c t := (hmem t).mpr htype
    cases t with
    | global => rw [append_assoc, takeWhile_ne_append_of_mem hin]
    | topmost =>
      rw [append_assoc, takeWhile_ne_append (hnot _ (by simp)), takeWhile_ne_append_of_mem hin]
    | normal =>
      rw [append_assoc, takeWhile_ne_append (hnot _ (by simp)), takeWhile_ne_append (hnot _ (by simp)),
        append_assoc]

theorem foldl_recalcGcrinfo (l : List Int) {crgn : ClipRgn} (h : crgn.Sound)
    : (l.foldl (fun crgn a => zi.recalcGcrinfo a crgn) crgn).Sound
        ∧ (l.foldl (fun crgn a => zi.recalcGcrinfo a crgn) crgn).pixels
          = crgn.pixels \ { p | ∃ a ∈ l, (zi.nodes a).visible = true ∧ p ∈ (zi.nodes a).rc.pixels } := by
  apply foldl_subtract (s := fun a => { p | (zi.nodes a).visible = true ∧ p ∈ (zi.nodes a).rc.pixels }) _ l h
  intro rgn a hrgn
  unfold recalcGcrinfo
  split
  . next hvisible =>
    refine ⟨subtractClipRect_sound hrgn, ?_⟩
    rw [subtractClipRect_pixels hrgn]
    simp [hvisible]
  . next hhidden =>
    refine ⟨hrgn, ?_⟩
    simp [hhidden]

theorem lockRecalcGcrinfo_spec (h : Chains zi.store c)
    (hidx : idx = 0 ∨ idx ∈ zi.stack) (hold : gcrinfo.oldZiAge ≠ (zi.nodes idx).age)
    (hcrgn : gcrinfo.crgn.Sound) : let rc := (intersectRect (zi.nodes idx).rc rcScr).2
      (zi.lockRecalcGcrinfo rcScr idx gcrinfo).crgn.Sound
        ∧ (zi.lockRecalcGcrinfo rcScr idx gcrinfo).crgn.pixels
          = (if isRectEmpty rc then gcrinfo.crgn.pixels else rc.pixels) \ zi.covered idx := by
  intro rc
  have hset := @setClipRgn_sound _ rc hcrgn
  have hmenus := foldl_subtract (s := fun i : Nat => (zi.menuNodes i).rc.pixels)
    (fun rgn i hrgn => ⟨@subtractClipRect_sound _ ((zi.menuNodes i).rc) hrgn, subtractClipRect_pixels hrgn⟩)
    (List.range zi.nrPopupmenus.toNat) hset
  have hcode : (zi.lockRecalcGcrinfo rcScr idx gcrinfo).crgn
      = (zi.above idx).foldl (fun crgn a => zi.recalcGcrinfo a crgn)
          ((List.range zi.nrPopupmenus.toNat).foldl
            (fun crgn (i : Nat) => (subtractClipRect crgn (zi.menuNodes i).rc).2) (setClipRgn gcrinfo.crgn rc).2) := by
    rw [above_eq h]
    unfold lockRecalcGcrinfo
    rw [if_neg hold]
    rcases hidx with hzero | hmem
    . have htype : (zi.nodes 0).type = ZOF_TYPE_DESKTOP := h.desktop
      have hnone : chainOf ZOF_TYPE_DESKTOP = none := by decide
      have hstop : ∀ crgn, zi.scan (fun slot => slot = 0 || slot = 0) zi.recalcGcrinfo (zi.maxNrNodes + 1) 0 crgn
          = crgn := by
        intro crgn
        rw [scan, if_pos (by decide)]
      rw [hzero, htype, hnone]
      dsimp only
      rw [if_neg (c := ZOF_TYPE_DESKTOP = ZOF_TYPE_NORMAL) (by decide),
        if_neg (c := ZOF_TYPE_DESKTOP = ZOF_TYPE_TOPMOST) (by decide),
        if_neg (c := ZOF_TYPE_DESKTOP = ZOF_TYPE_GLOBAL) (by decide), if_pos rfl]
      rw [hstop, recalcAll_eq h, recalcAll_eq h, recalcAll_eq h, foldl_append, foldl_append, ← hzero]
    rw [mem_stack h] at hmem
    rcases hmem with ⟨t, ht⟩
    have htype : chainOf (zi.nodes idx).type = some t := (h.type idx t).mpr ht
    rw [htype, eq_flagOf htype]
    cases t with
    | global =>
      dsimp only
      rw [if_neg (c := flagOf .global = ZOF_TYPE_NORMAL) (by decide),
        if_neg (c := flagOf .global = ZOF_TYPE_TOPMOST) (by decide), if_pos (by decide)]
      rw [recalcUpTo_eq h]
    | topmost =>
      dsimp only
      rw [if_neg (c := flagOf .topmost = ZOF_TYPE_NORMAL) (by decide), if_pos (by decide)]
      dsimp only
      rw [recalcUpTo_eq h, recalcAll_eq h, foldl_append]
    | normal =>
      dsimp only
      rw [if_pos (by decide)]
      dsimp only
      rw [recalcUpTo_eq h, recalcAll_eq h, recalcAll_eq h, foldl_append, foldl_append]
  have habove := @foldl_recalcGcrinfo zi (zi.above idx) _ hmenus.1
  rw [hcode]
  refine ⟨habove.1, ?_⟩
  have hstart : (setClipRgn gcrinfo.crgn rc).2.pixels
      = if isRectEmpty rc then gcrinfo.crgn.pixels else rc.pixels := by
    rw [setClipRgn_eq]
    split
    . rfl
    . apply ClipRgn.pixels_single
  rw [habove.2, hmenus.2, hstart, Set.sdiff_sdiff]
  congr 1
  ext p
  unfold covered
  simp only [Set.mem_union, Set.mem_ofPred_eq, mem_range]

theorem pixels_intersectRect (a b : Rect) : (intersectRect a b).2.pixels = a.pixels ∩ b.pixels := by
  ext p
  rw [Set.mem_inter_iff, Rect.mem_pixels, Rect.mem_pixels, Rect.mem_pixels, intersectRect_mem]

theorem lockRecalcGcrinfo_exact (h : Chains zi.store c)
    (hidx : idx = 0 ∨ idx ∈ zi.stack) (hold : gcrinfo.oldZiAge ≠ (zi.nodes idx).age)
    (hcrgn : gcrinfo.crgn.Sound)
    : (zi.lockRecalcGcrinfo rcScr idx gcrinfo).crgn.pixels = zi.visibleRegion rcScr idx
        ↔
      isRectEmpty (intersectRect (zi.nodes idx).rc rcScr).2 = false ∨ gcrinfo.crgn.pixels ⊆ zi.covered idx := by
  rw [(lockRecalcGcrinfo_spec h hidx hold hcrgn).2, visibleRegion, ← pixels_intersectRect]
  generalize (intersectRect (zi.nodes idx).rc rcScr).2 = rc
  cases hempty : isRectEmpty rc with
  | false => simp
  | true =>
    have hnone : rc.pixels = ∅ := by
      rw [Set.eq_empty_iff_forall_notMem]
      intro p
      apply isRectEmpty_not_mem hempty
    rw [if_pos rfl, hnone, Set.empty_sdiff, Set.sdiff_eq_empty]
    simp

section HitTest

variable {x y : Int}

theorem ptInRect_iff {rc : Rect} : ptInRect rc x y = true ↔ (x, y) ∈ rc.pixels := by
  unfold ptInRect
  rw [Rect.mem_pixels, Rect.Mem]
  simp only [Bool.and_eq_true, decide_eq_true_eq]
  omega

def hit (zi : ZOrderInfo) (x y : Int) (slot : Int) : Bool :=
  (zi.nodes slot).visible && ptInRect (zi.nodes slot).rc x y

theorem hit_iff : zi.hit x y slot = true ↔ (zi.nodes slot).visible = true ∧ (x, y) ∈ (zi.nodes slot).rc.pixels := by
  unfold hit
  rw [Bool.and_eq_true, ptInRect_iff]

theorem findAtPoint_eq (h : Chains zi.store c) (t : ZType)
    : zi.findAtPoint x y (zi.maxNrNodes + 1) (zi.first t) = ((c t).find? (zi.hit x y)).getD 0 := by
  have hfind : ∀ (l : List Int) (slot : Int) (fuel : Nat), (∀ a ∈ l, 0 < a) →
      Linked (fun a => DList.link 0 (zi.nodes a).next) (DList.link 0 slot) l → l.length < fuel →
      zi.findAtPoint x y fuel slot = (l.find? (zi.hit x y)).getD 0 := by
    intro l
    induction l with
    | nil =>
      intro slot fuel _ hl hfuel
      rw [linked_nil, link_eq_none] at hl
      cases fuel with
      | zero => simp at hfuel
      | succ fuel =>
        rw [findAtPoint, hl]
        rfl
    | cons a l ih =>
      intro slot fuel hpos hl hfuel
      rw [linked_cons, link_eq_some] at hl
      cases fuel with
      | zero => simp at hfuel
      | succ fuel =>
        rw [findAtPoint, hl.1.1, if_pos (hpos a mem_cons_self)]
        change (if zi.hit x y a = true then a else _) = _
        by_cases ha : zi.hit x y a = true
        . rw [if_pos ha, find?_cons_of_pos ha]
          rfl
        rw [if_neg ha, find?_cons_of_neg ha]
        rw [length_cons] at hfuel
        apply ih _ _ _ hl.2
        . omega
        . intro b hb
          exact hpos b (mem_cons_of_mem a hb)
  apply hfind
  . intro a ha
    exact h.pos ha
  . exact (h.valid t).forward
  . have hle : (c t).length ≤ zi.maxNrNodes := h.length_le
    omega

theorem getZnodeAtPoint_eq (h : Chains zi.store c)
    : zi.getZnodeAtPoint x y = (zi.stack.find? (zi.hit x y)).getD 0 := by
  have hpos : ∀ t, ∀ a, (c t).find? (zi.hit x y) = some a → 0 < a :=
    fun t a ha => h.pos (mem_of_find?_eq_some ha)
  unfold getZnodeAtPoint
  dsimp only
  rw [findAtPoint_eq h, findAtPoint_eq h, findAtPoint_eq h, stack_eq h, find?_append, find?_append]
  cases hg : (c .global).find? (zi.hit x y) with
  | some a => simp [hpos _ a hg]
  | none =>
    cases ht : (c .topmost).find? (zi.hit x y) with
    | some a => simp [hpos _ a ht]
    | none => simp

theorem find?_eq_some_iff_takeWhile {p : Int → Bool} (hl : l.Nodup)
    : l.find? p = some slot ↔ slot ∈ l ∧ p slot = true ∧ ∀ a ∈ l.takeWhile (fun a => a ≠ slot), p a = false := by
  induction l with
  | nil => simp
  | cons b l ih =>
    rw [nodup_cons] at hl
    by_cases hb : p b = true
    . rw [find?_cons_of_pos hb, Option.some.injEq]
      by_cases heq : b = slot
      . rw [heq] at hb
        simp [heq, hb]
      simp only [heq, false_iff, not_and]
      intro _ _ hall
      have hfalse := hall b (by simp [heq])
      rw [hb] at hfalse
      simp at hfalse
    rw [find?_cons_of_neg hb, ih hl.2]
    by_cases heq : b = slot
    . rw [heq] at hb hl
      simp [hb]
    . simp [heq, hb, Ne.symm heq]

theorem mem_visibleRegion (hmenus : zi.nrPopupmenus = 0) (hscr : (x, y) ∈ rcScr.pixels)
    : (x, y) ∈ zi.visibleRegion rcScr slot
        ↔
      (x, y) ∈ (zi.nodes slot).rc.pixels ∧ ∀ a ∈ zi.above slot, zi.hit x y a = false := by
  have hmiss : ∀ a, zi.hit x y a = false
      ↔ ¬((zi.nodes a).visible = true ∧ (x, y) ∈ (zi.nodes a).rc.pixels) := by
    intro a
    rw [← hit_iff, Bool.not_eq_true]
  unfold visibleRegion covered
  rw [hmenus]
  simp only [hmiss, Set.mem_sdiff, Set.mem_inter_iff, Set.mem_ofPred_eq, hscr]
  simp

variable (h : Chains zi.store c)
include h

theorem mem_visibleRegion_iff (hmenus : zi.nrPopupmenus = 0)
    (hscr : (x, y) ∈ rcScr.pixels) (hmem : slot ∈ zi.stack) (hvisible : (zi.nodes slot).visible = true)
    : (x, y) ∈ zi.visibleRegion rcScr slot ↔ zi.getZnodeAtPoint x y = slot := by
  have hpos : 0 < slot := by
    rw [mem_stack h] at hmem
    rcases hmem with ⟨t, ht⟩
    exact h.pos ht
  have hfind : zi.getZnodeAtPoint x y = slot ↔ zi.stack.find? (zi.hit x y) = some slot := by
    rw [getZnodeAtPoint_eq h]
    cases zi.stack.find? (zi.hit x y) with
    | none =>
      simp
      omega
    | some a => simp
  rw [hfind, find?_eq_some_iff_takeWhile (nodup_stack h), hit_iff, mem_visibleRegion hmenus hscr]
  simp only [hmem, hvisible, true_and]
  rfl

theorem not_mem_stack_zero : 0 ∉ zi.stack := by
  rw [mem_stack h]
  rintro ⟨t, ht⟩
  have hpos := h.pos ht
  omega

theorem above_zero : zi.above 0 = zi.stack := by
  have hall := takeWhile_ne_append (m := []) (not_mem_stack_zero h)
  rw [takeWhile_nil, append_nil] at hall
  exact hall

theorem mem_visibleRegion_zero_iff (hmenus : zi.nrPopupmenus = 0)
    (hrc : (zi.nodes 0).rc = rcScr) (hscr : (x, y) ∈ rcScr.pixels)
    : (x, y) ∈ zi.visibleRegion rcScr 0 ↔ zi.getZnodeAtPoint x y = 0 := by
  rw [mem_visibleRegion hmenus hscr, above_zero h, hrc, getZnodeAtPoint_eq h]
  cases hfind : zi.stack.find? (zi.hit x y) with
  | none =>
    simp only [find?_eq_none, Bool.not_eq_true] at hfind
    simp only [hscr, true_and, Option.getD_none, iff_true]
    exact hfind
  | some a =>
    have hmem := mem_of_find?_eq_some hfind
    have hhit := find?_some hfind
    have hne : a ≠ 0 := by
      intro heq
      rw [heq] at hmem
      exact not_mem_stack_zero h hmem
    simp only [Option.getD_some, hne, iff_false, not_and]
    intro _ hmiss
    rw [hmiss a hmem] at hhit
    simp at hhit

theorem getZnodeAtPoint_mem : zi.getZnodeAtPoint x y = 0
        ∨ zi.getZnodeAtPoint x y ∈ zi.stack ∧ (zi.nodes (zi.getZnodeAtPoint x y)).visible = true := by
  rw [getZnodeAtPoint_eq h]
  cases hfind : zi.stack.find? (zi.hit x y) with
  | none => exact .inl rfl
  | some a =>
    right
    exact ⟨mem_of_find?_eq_some hfind, (hit_iff.mp (find?_some hfind)).1⟩

end HitTest

end ZOrderInfo

end MiniGui
