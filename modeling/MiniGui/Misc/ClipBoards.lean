import MiniGui.Misc.Clipboard

/-!
The table of clipboards as a map from names to bounded buffers.
-/

namespace MiniGui.ClipBoards

open List

abbrev CbName := { name : List UInt8 // name ≠ [] }

def CbName.stored (name : CbName) : List UInt8 :=
  name.val.take lenClipboardName

/-- A clipboard with everything that was written to it since it was last replaced. -/
structure Board where
  capacity : Nat
  written : List UInt8

inductive Call where
  | create (malloc : Bool) (name : CbName) (size : BitVec 32)
  | destroy (name : CbName)
  | set (name : CbName) (data : List UInt8) (n : BitVec 32) (append : Bool)

structure State where
  cbs : List Clipboard
  boards : List UInt8 → Option Board

def nrClipboards : Nat := 4

def start : State :=
  { cbs := replicate nrClipboards freeClipboard, boards := fun _ => none }

namespace State

def Fresh (s : State) (name : CbName) (size : BitVec 32) : Prop :=
  size ≠ 0 ∧ (getClipboard s.cbs name).isSome = false

def HasSlot (s : State) : Prop :=
  (s.cbs.findIdx? fun cb => cb.name.isEmpty).isSome

instance (s : State) (name : CbName) (size : BitVec 32) : Decidable (s.Fresh name size) :=
  inferInstanceAs (Decidable (_ ∧ _))

instance (s : State) : Decidable s.HasSlot :=
  inferInstanceAs (Decidable (_ = _))

def run (s : State) : Call → BitVec 32 × List Clipboard
  | .create malloc name size => createClipBoard ⟨fun _ => malloc, 0⟩ s.cbs name size
  | .destroy name => destroyClipBoard s.cbs name
  | .set name data n append => setClipBoardData s.cbs name data n append

/-- The map: a board is created where there is none, and only a stored name is destroyed. -/
def spec (s : State) : Call → List UInt8 → Option Board
  | .create malloc name size =>
    if s.Fresh name size ∧ s.HasSlot ∧ malloc then
      Function.update s.boards name.stored (some ⟨size.toNat, []⟩)
    else
      s.boards
  | .destroy name => if name.stored = name then Function.update s.boards name.stored none else s.boards
  | .set name data n append =>
    Function.update s.boards name.stored ((s.boards name.stored).map fun board =>
      { board with written := (if append then board.written else []) ++ data.take n.toNat })

def step (s : State) (call : Call) : State :=
  { cbs := (s.run call).2, boards := s.spec call }

/-- The live names differ, and each name is found with the beginning of what was written under it. -/
structure Sound (s : State) : Prop where
  distinct : s.cbs.Pairwise fun a b => a.name = b.name → a.name = []
  short : ∀ cb ∈ s.cbs, cb.name.length ≤ lenClipboardName
  reads : ∀ name : CbName, (getClipboard s.cbs name).map (fun cb => (cb.buffLen, cb.data))
    = (s.boards name.stored).map fun board => (board.capacity, board.written.take board.capacity)

/-- What `get_clip_board_data` copies. -/
def Gets (s : State) : Prop :=
  ∀ (name : CbName) (n : BitVec 32), (getClipBoardData s.cbs name n).out
    = (((s.boards name.stored).map fun board => board.written.take board.capacity).getD []).take n.toNat

/-- `CBERR_OK` is returned when a board was created, and the table is left as it was otherwise. -/
def CreateOk (s : State) : Call → Prop
  | .create malloc name size =>
    ((s.run (.create malloc name size)).1 = cberrOk ↔ s.Fresh name size ∧ s.HasSlot ∧ malloc)
      ∧ (¬(s.Fresh name size ∧ s.HasSlot ∧ malloc) → (s.run (.create malloc name size)).2 = s.cbs)
  | _ => True

/-- There is a free slot whenever a new name comes. -/
def RoomOk (s : State) : Call → Prop
  | .create _ name size => s.Fresh name size → s.HasSlot
  | _ => True

def MapRun (s : State) : List Call → Prop
  | [] => s.Sound ∧ s.Gets
  | call :: calls => (s.Sound ∧ s.Gets) ∧ s.CreateOk call ∧ MapRun (s.step call) calls

def RoomRun (s : State) : List Call → Prop
  | [] => True
  | call :: calls => s.RoomOk call ∧ RoomRun (s.step call) calls

end State

variable {s : State} {before after : List Clipboard} {cb : Clipboard}

theorem findIdx_split {cbs : List Clipboard} {p : Clipboard → Bool} {i : Nat} (h : cbs.findIdx? p = some i)
    : ∃ before cb after, cbs = before ++ cb :: after ∧ p cb = true
      ∧ ∀ f, cbs.modify i f = before ++ f cb :: after := by
  obtain ⟨hi, hp, -⟩ := findIdx?_eq_some_iff_getElem.mp h
  refine ⟨cbs.take i, cbs[i], cbs.drop (i + 1), ?_, hp, ?_⟩
  . simp
  . intro f
    rw [modify_eq_take_cons_drop hi]

def Apart (cbs : List Clipboard) : Prop :=
  cbs.Pairwise (fun a b => a.name = b.name → a.name = []) ∧ ∀ cb ∈ cbs, cb.name.length ≤ lenClipboardName

theorem apart_middle
    : Apart (before ++ cb :: after)
        ↔ Apart (before ++ after) ∧ cb.name.length ≤ lenClipboardName
          ∧ ∀ other ∈ before ++ after, cb.name = other.name → cb.name = [] := by
  unfold Apart
  rw [pairwise_middle (fun h heq => heq.trans (h heq.symm)), pairwise_cons]
  simp only [mem_append, mem_cons]
  grind

theorem named_iff (hshort : cb.name.length ≤ lenClipboardName) (name : CbName)
    : cb.Named name ↔ name.stored = cb.name := by
  unfold Clipboard.Named CbName.stored
  rw [take_of_length_le hshort]

theorem stored_ne_nil (name : CbName) : name.stored ≠ [] := by
  unfold CbName.stored lenClipboardName
  simp [name.property]

theorem getClipboard_middle (h : Apart (before ++ cb :: after)) (name : CbName)
    : getClipboard (before ++ cb :: after) name
        = if name.stored = cb.name then some cb else getClipboard (before ++ after) name := by
  obtain ⟨-, hshort, hother⟩ := apart_middle.mp h
  unfold getClipboard
  rw [find?_append, find?_append, find?_cons]
  split_ifs with hname
  . have hbefore : before.find? (fun cb => decide (cb.Named name)) = none := by
      rw [find?_eq_none]
      intro other hmem
      rw [decide_eq_true_eq, named_iff (h.2 other (mem_append_left _ hmem))]
      intro heq
      have hnil := hother other (mem_append_left _ hmem) (hname.symm.trans heq)
      exact stored_ne_nil name (hname.trans hnil)
    rw [hbefore, decide_eq_true ((named_iff hshort name).mpr hname)]
    rfl
  . rw [decide_eq_false (mt (named_iff hshort name).mp hname)]

theorem getClipboard_absent (h : Apart (before ++ cb :: after)) {name : CbName} (hname : name.stored = cb.name)
    : getClipboard (before ++ after) name = none := by
  obtain ⟨hrest, -, hother⟩ := apart_middle.mp h
  unfold getClipboard
  rw [find?_eq_none]
  intro other hmem
  rw [decide_eq_true_eq, named_iff (hrest.2 other hmem)]
  intro heq
  exact stored_ne_nil name (hname.trans (hother other hmem (hname.symm.trans heq)))

theorem State.Sound.apart (h : s.Sound) : Apart s.cbs :=
  ⟨h.distinct, h.short⟩

/-- One slot of the table is rewritten, and the entry of its name with it. -/
theorem State.Sound.replace (h : s.Sound) (hcbs : s.cbs = before ++ cb :: after) {name : CbName}
    (hold : cb.name = name.stored ∨ cb.name = [] ∧ getClipboard s.cbs name = none) {new : Clipboard}
    (hnew : new.name = name.stored ∨ new.name = []) {entry : Option Board}
    (hentry : (if new.name = name.stored then some (new.buffLen, new.data) else none)
      = entry.map fun board => (board.capacity, board.written.take board.capacity))
    : State.Sound ⟨before ++ new :: after, Function.update s.boards name.stored entry⟩ := by
  have hne := stored_ne_nil name
  have hapart := h.apart
  rw [hcbs] at hapart hold
  obtain ⟨hrest, -, -⟩ := apart_middle.mp hapart
  have habsent : getClipboard (before ++ after) name = none := by
    obtain hold | ⟨hnil, hnone⟩ := hold
    . exact getClipboard_absent hapart hold.symm
    . rwa [getClipboard_middle hapart, hnil, if_neg hne] at hnone
  have hapart' : Apart (before ++ new :: after) := by
    refine apart_middle.mpr ⟨hrest, ?_, ?_⟩
    . obtain hnew | hnew := hnew
      . rw [hnew]
        exact length_take_le _ _
      . simp [hnew]
    intro other hmem heq
    obtain hnew | hnew := hnew
    . have hnot := find?_eq_none.mp habsent other hmem
      rw [decide_eq_true_eq, named_iff (hrest.2 other hmem)] at hnot
      exact absurd (hnew.symm.trans heq) hnot
    . exact hnew
  refine ⟨hapart'.1, hapart'.2, fun other => ?_⟩
  dsimp only
  rw [getClipboard_middle hapart']
  by_cases hsame : other.stored = name.stored
  . have hother : getClipboard (before ++ after) other = none := by
      rw [← getClipboard_take, ← habsent, ← getClipboard_take _ name.val]
      exact congrArg _ hsame
    rw [hsame, Function.update_self, hother, ← hentry]
    obtain hnew | hnew := hnew
    . simp [hnew]
    . simp [hnew, hne]
  have hreads := h.reads other
  rw [hcbs, getClipboard_middle hapart] at hreads
  have hcb : other.stored ≠ cb.name := by
    obtain hold | ⟨hnil, -⟩ := hold
    . rwa [hold]
    . rw [hnil]
      exact stored_ne_nil other
  have hn : other.stored ≠ new.name := by
    obtain hnew | hnew := hnew
    . rwa [hnew]
    . rw [hnew]
      exact stored_ne_nil other
  rw [if_neg hn, Function.update_of_ne hsame, ← hreads, if_neg hcb]

theorem State.Sound.create (h : s.Sound) (malloc : Bool) (name : CbName) (size : BitVec 32)
    : (s.step (.create malloc name size)).Sound
      ∧ (s.CreateOk (.create malloc name size) ↔ s.RoomOk (.create malloc name size)) := by
  simp only [State.step, State.run, State.spec, State.CreateOk, State.RoomOk, createClipBoard]
  by_cases hsize : size = 0
  . have hfresh : ¬s.Fresh name size := fun hand => hand.1 hsize
    rw [if_pos hsize, if_neg (fun hand => hfresh hand.1)]
    exact ⟨h, by simp [hfresh, cberrOk]⟩
  rw [if_neg hsize]
  by_cases htaken : (getClipboard s.cbs name).isSome
  . have hfresh : ¬s.Fresh name size := fun hand => by simp [hand.2] at htaken
    rw [if_pos htaken, if_neg (fun hand => hfresh hand.1)]
    exact ⟨h, by simp [hfresh, cberrOk, cberrBadname]⟩
  have hfresh : s.Fresh name size := ⟨hsize, Bool.eq_false_iff.mpr htaken⟩
  have hnone := Option.isSome_eq_false_iff.mp hfresh.2
  rw [Option.isNone_iff_eq_none] at hnone
  rw [if_neg htaken]
  cases hslot : s.cbs.findIdx? (fun cb => cb.name.isEmpty) with
  | none =>
    have hno : ¬s.HasSlot := by simp [State.HasSlot, hslot]
    rw [if_neg (fun hand => hno hand.2.1)]
    exact ⟨h, by simp [hfresh, hno]⟩
  | some i =>
    have hyes : s.HasSlot := by simp [State.HasSlot, hslot]
    cases malloc with
    | false =>
      simp only [Bool.false_eq_true, if_false, and_false]
      exact ⟨h, by simp [hyes, cberrOk, cberrNomem]⟩
    | true =>
      obtain ⟨before, cb, after, hcbs, hempty, hset⟩ := findIdx_split hslot
      simp only [if_true, and_true]
      rw [if_pos ⟨hfresh, hyes⟩]
      refine ⟨?_, by simp [hfresh, hyes]⟩
      rw [set_eq_modify, hset]
      exact h.replace hcbs (.inr ⟨isEmpty_iff.mp hempty, hnone⟩) (.inl rfl) (by simp [CbName.stored])

theorem State.Sound.boards_none (h : s.Sound) {name : CbName}
    (hnot : ∀ cb ∈ s.cbs, name.stored ≠ cb.name) : s.boards name.stored = none := by
  have hreads := h.reads name
  have hnone : getClipboard s.cbs name = none := by
    refine find?_eq_none.mpr fun cb hcb => ?_
    rw [decide_eq_true_eq, named_iff (h.short cb hcb)]
    exact hnot cb hcb
  rw [hnone] at hreads
  exact Option.map_eq_none_iff.mp hreads.symm

theorem State.Sound.destroy (h : s.Sound) (name : CbName) : (s.step (.destroy name)).Sound := by
  simp only [State.step, State.run, State.spec, destroyClipBoard]
  split
  . next i hi =>
    obtain ⟨before, cb, after, hcbs, hp, hset⟩ := findIdx_split hi
    have hname : cb.name = name := eq_of_beq hp
    have hstored : name.stored = name := by
      have hshort := h.short cb (by simp [hcbs])
      rw [hname] at hshort
      exact take_of_length_le hshort
    rw [if_pos hstored, set_eq_modify, hset]
    exact h.replace hcbs (.inl (hname.trans hstored.symm)) (.inr rfl)
      (by simp [freeClipboard, (stored_ne_nil name).symm])
  rename_i hnone
  split
  . next hstored =>
    have hboards := h.boards_none (fun cb hcb heq => by
      have hne := findIdx?_eq_none_iff.mp hnone cb hcb
      rw [← heq, hstored, beq_self_eq_true] at hne
      cases hne)
    rw [← hboards, Function.update_eq_self]
    exact h
  . exact h

theorem store_data (cb : Clipboard) (data : List UInt8) (n capacity : Nat) (append : Bool) {written : List UInt8}
    (hlen : cb.buffLen = capacity) (hdata : cb.data = written.take capacity)
    : (cb.store data n append).data = ((if append then written else []) ++ data.take n).take capacity := by
  cases append with
  | true =>
    show cb.data ++ data.take (cb.room n true) = _
    rw [Clipboard.room, if_pos rfl, if_pos rfl, take_append, take_take, hdata, hlen, length_take,
      show capacity - min capacity written.length = capacity - written.length by omega, Nat.min_comm]
  | false =>
    show data.take (cb.room n false) = _
    rw [Clipboard.room, if_neg Bool.false_ne_true, if_neg Bool.false_ne_true, nil_append, take_take, hlen,
      Nat.min_comm]

theorem State.Sound.set (h : s.Sound) (name : CbName) (data : List UInt8) (n : BitVec 32) (append : Bool)
    : (s.step (.set name data n append)).Sound := by
  simp only [State.step, State.run, State.spec, setClipBoardData]
  split
  . next hnone =>
    have hboards := h.boards_none (fun cb hcb heq => by
      have hne := findIdx?_eq_none_iff.mp hnone cb hcb
      rw [decide_eq_true ((named_iff (h.short cb hcb) name).mpr heq)] at hne
      cases hne)
    rw [hboards, Option.map_none, ← hboards, Function.update_eq_self]
    exact h
  rename_i i hi
  obtain ⟨before, cb, after, hcbs, hp, hmodify⟩ := findIdx_split hi
  have hname := (named_iff (h.short cb (by simp [hcbs])) name).mp (of_decide_eq_true hp)
  have hreads := h.reads name
  have hapart := h.apart
  rw [hcbs] at hreads hapart
  rw [getClipboard_middle hapart, if_pos hname] at hreads
  rw [hmodify]
  have hstore : (cb.store data n.toNat append).name = cb.name ∧ (cb.store data n.toNat append).buffLen = cb.buffLen := by
    cases append <;> exact ⟨rfl, rfl⟩
  refine h.replace hcbs (.inl hname.symm) (.inl (hstore.1.trans hname.symm)) ?_
  cases hboard : s.boards name.stored with
  | none => simp [hboard] at hreads
  | some board =>
    simp only [hboard, Option.map_some, Option.some.injEq, Prod.mk.injEq] at hreads
    rw [if_pos (hstore.1.trans hname.symm), hstore.2, store_data cb data n.toNat _ append hreads.1 hreads.2, hreads.1]
    rfl

theorem State.Sound.step_iff (h : s.Sound) (call : Call)
    : (s.step call).Sound ∧ (s.CreateOk call ↔ s.RoomOk call) := by
  cases call with
  | create malloc name size => exact h.create malloc name size
  | destroy name => exact ⟨h.destroy name, Iff.rfl⟩
  | set name data n append => exact ⟨h.set name data n append, Iff.rfl⟩

theorem State.Sound.gets (h : s.Sound) : s.Gets := by
  intro name n
  have hreads := congrArg (Option.map Prod.snd) (h.reads name)
  rw [Option.map_map, Option.map_map] at hreads
  have hdata : (s.boards name.stored).map (fun board => board.written.take board.capacity)
      = (getClipboard s.cbs name).map Clipboard.data := hreads.symm
  rw [hdata, getClipBoardData]
  by_cases hn : n = 0
  . simp [hn]
  rw [if_neg hn]
  cases getClipboard s.cbs name with
  | none => simp
  | some cb => simp [take_eq_take_iff]

theorem mapRun_iff_of_sound (h : s.Sound) (calls : List Call) : s.MapRun calls ↔ s.RoomRun calls := by
  induction calls generalizing s with
  | nil => exact iff_of_true ⟨h, h.gets⟩ trivial
  | cons call calls ih =>
    obtain ⟨hnext, hcreate⟩ := h.step_iff call
    simp only [State.MapRun, State.RoomRun, ih hnext, hcreate, h, h.gets, true_and]

/-- The table is the map of boards in every run that has a free slot for each new name, and in no other. -/
theorem mapRun_iff (calls : List Call) : start.MapRun calls ↔ start.RoomRun calls := by
  apply mapRun_iff_of_sound
  refine ⟨?_, ?_, fun name => ?_⟩
  . exact pairwise_replicate.mpr (Or.inr fun _ => rfl)
  . intro cb hcb
    rw [eq_of_mem_replicate hcb]
    decide
  have hnone : getClipboard start.cbs name = none := by
    refine find?_eq_none.mpr fun cb hcb => ?_
    rw [eq_of_mem_replicate hcb, decide_eq_true_eq, named_iff (by decide)]
    exact stored_ne_nil name
  rw [hnone]
  rfl

/-- A fifth name, for which `CBERR_OK` is returned. -/
theorem not_mapRun_full
    : ¬start.MapRun ([1, 2, 3, 4, 5].map fun i => .create true ⟨[i], cons_ne_nil _ _⟩ 8) := by
  rintro ⟨-, -, -, -, -, -, -, -, -, ⟨hcreate, -⟩, -⟩
  exact absurd hcreate (by decide)

end MiniGui.ClipBoards
