import Mathlib

/-!
Accelerator tables (`gui/accelkey.c`). The items of a table are a list, the newest first; keys are the words that the
code compares, and the results of the allocations are given.
-/

namespace MiniGui.AccelKey

structure AccelItem where
  key : BitVec 32
  keymask : BitVec 32
  wParam : BitVec 32
  lParam : BitVec 32

structure AccelTable where
  hwnd : Nat
  items : List AccelItem

inductive KeyMessage where
  | MSG_KEYDOWN
  | MSG_CHAR
  | MSG_SYSKEYDOWN
  | MSG_SYSCHAR
  | other

def doesHalfMatch (left right mask1 mask2 : BitVec 32) : Bool :=
  if mask1 &&& (left ||| right) = left ||| right then
    mask2 &&& left ≠ 0 || mask2 &&& right ≠ 0
  else
    mask1 &&& (left ||| right) = mask2 &&& (left ||| right)

/-- Control, alt and shift, each with its key on the left and on the right. -/
def doesMaskMatch (mask1 mask2 : BitVec 32) : Bool :=
  doesHalfMatch 0x20 0x10 mask1 mask2 && doesHalfMatch 0x08 0x04 mask1 mask2 && doesHalfMatch 0x02 0x01 mask1 mask2

def AccelItem.hits (key keymask : BitVec 32) (item : AccelItem) : Bool :=
  item.key = key && doesMaskMatch item.keymask keymask

def accFindMatchAccelKeys (items : List AccelItem) (key keymask : BitVec 32) : Option AccelItem :=
  items.find? (·.hits key keymask)

def ERR_RES_ALLOCATION : Int := -7

def ERR_ALREADY_EXIST : Int := -12

def ERR_NO_MATCH : Int := -13

def ERR_BAD_OWNER : Int := -14

def addAccelerators (mem : Bool) (items : List AccelItem) (item : AccelItem) : Int × List AccelItem :=
  if (accFindMatchAccelKeys items item.key item.keymask).isSome then
    (ERR_ALREADY_EXIST, items)
  else if mem then
    (0, item :: items)
  else
    (ERR_RES_ALLOCATION, items)

def deleteAccelerators (items : List AccelItem) (key keymask : BitVec 32) : Int × List AccelItem :=
  match accFindMatchAccelKeys items key keymask with
  | none => (ERR_NO_MATCH, items)
  | some _ => (0, items.eraseP (·.hits key keymask))

/-- The loop of `CopyAcceleratorTable`; `mem` has the results of the allocations of the items in turn. -/
def copyItems (mem : Nat → Bool) : List AccelItem → List AccelItem → Option (List AccelItem)
  | [], copy => some copy
  | item :: rest, copy =>
    let (err, copy') := addAccelerators (mem copy.length) copy item
    if err ≠ 0 then none else copyItems mem rest copy'

def copyAcceleratorTable (tableMem : Bool) (mem : Nat → Bool) (pac : AccelTable) : Option AccelTable :=
  if tableMem then (copyItems mem pac.items []).map (⟨pac.hwnd, ·⟩) else none

def messageKey (wParam : BitVec 32) : KeyMessage → Option (BitVec 32)
  | .MSG_KEYDOWN | .MSG_SYSKEYDOWN => some (wParam ||| 256)
  | .MSG_CHAR | .MSG_SYSCHAR => some (wParam &&& 255)
  | .other => none

def notified : KeyMessage → BitVec 32
  | .MSG_SYSKEYDOWN | .MSG_SYSCHAR => 0x121
  | _ => 0x120

/-- The `wParam` and `lParam` of the item that is found. -/
def params (items : List AccelItem) (key keymask : BitVec 32) : Option (BitVec 32 × BitVec 32) :=
  (accFindMatchAccelKeys items key keymask).map fun item => (item.wParam, item.lParam)

/-- The notification that a message of the window is translated to, or the error. -/
def translateAccelerator (pac : AccelTable) (hwnd : Nat) (message : KeyMessage) (wParam lParam : BitVec 32)
    : Except Int (BitVec 32 × BitVec 32 × BitVec 32) :=
  if pac.hwnd ≠ hwnd then
    .error ERR_BAD_OWNER
  else
    match (messageKey wParam message).bind (params pac.items · lParam) with
    | some found => .ok (notified message, found)
    | none => .error ERR_NO_MATCH

inductive AccelCall where
  | add (mem : Bool) (item : AccelItem)
  | delete (key keymask : BitVec 32)

def AccelTable.call (pac : AccelTable) : AccelCall → AccelTable
  | .add mem item => { pac with items := (addAccelerators mem pac.items item).2 }
  | .delete key keymask => { pac with items := (deleteAccelerators pac.items key keymask).2 }

def built (hwnd : Nat) (calls : List AccelCall) : AccelTable :=
  calls.foldl AccelTable.call ⟨hwnd, []⟩

structure CopyOk (pac : AccelTable) : Prop where
  succeeds : ∀ mem, copyAcceleratorTable true mem pac = none → ∃ i, mem i = false
  same : ∀ mem copy, copyAcceleratorTable true mem pac = some copy →
    ∀ hwnd message wParam lParam,
      translateAccelerator copy hwnd message wParam lParam = translateAccelerator pac hwnd message wParam lParam

/--
No item matches the mask of an older one of its key; and the newest and the oldest item that a message matches have the
same parameters.
-/
structure CopySafe (pac : AccelTable) : Prop where
  apart : pac.items.Pairwise fun newer older => newer.hits older.key older.keymask = false
  ends : ∀ message wParam lParam key, messageKey wParam message = some key →
    params pac.items key lParam = params pac.items.reverse key lParam

theorem copyItems_eq_some {mem : Nat → Bool} {items copy copy' : List AccelItem}
    : copyItems mem items copy = some copy'
        ↔ ((∀ item ∈ items, ∀ old ∈ copy, old.hits item.key item.keymask = false)
            ∧ items.Pairwise fun newer older => newer.hits older.key older.keymask = false)
          ∧ (∀ i, copy.length ≤ i → i < copy.length + items.length → mem i = true)
          ∧ copy' = items.reverse ++ copy := by
  induction items generalizing copy with
  | nil =>
    simp only [copyItems, Option.some.injEq, List.length_nil, List.reverse_nil]
    constructor
    . rintro rfl
      refine ⟨⟨fun _ h => absurd h List.not_mem_nil, List.Pairwise.nil⟩, fun i hle hlt => ?_, rfl⟩
      omega
    . exact fun h => h.2.2.symm
  | cons item rest ih =>
    unfold copyItems addAccelerators
    by_cases hfind : (accFindMatchAccelKeys copy item.key item.keymask).isSome
    . rw [if_pos hfind]
      rw [accFindMatchAccelKeys, List.find?_isSome] at hfind
      obtain ⟨old, hold, hits⟩ := hfind
      constructor
      . intro h
        simp [ERR_ALREADY_EXIST] at h
      . rintro ⟨⟨hcopy, -⟩, -⟩
        rw [hcopy item List.mem_cons_self old hold] at hits
        cases hits
    rw [if_neg hfind]
    rw [Bool.not_eq_true, Option.isSome_eq_false_iff, Option.isNone_iff_eq_none, accFindMatchAccelKeys,
      List.find?_eq_none] at hfind
    simp only [Bool.not_eq_true] at hfind
    cases hmem : mem copy.length with
    | false =>
      constructor
      . intro h
        simp [ERR_RES_ALLOCATION] at h
      . rintro ⟨-, hall, -⟩
        rw [hall copy.length (Nat.le_refl _) (by simp)] at hmem
        cases hmem
    | true =>
      simp only [if_true, ne_eq, not_true_eq_false, if_false, ih, List.mem_cons, forall_eq_or_imp,
        List.pairwise_cons, List.length_cons, List.reverse_cons, List.append_assoc, List.singleton_append]
      constructor
      . rintro ⟨⟨hcopy, hrest⟩, hall, rfl⟩
        refine ⟨⟨⟨hfind, fun x hx => (hcopy x hx).2⟩, fun x hx => (hcopy x hx).1, hrest⟩, ?_, rfl⟩
        intro i hle hlt
        by_cases hi : i = copy.length
        . rw [hi, hmem]
        . exact hall i (by omega) (by omega)
      . rintro ⟨⟨⟨-, hcopy⟩, hitem, hrest⟩, hall, rfl⟩
        exact ⟨⟨fun x hx => ⟨hitem x hx, hcopy x hx⟩, hrest⟩, fun i hle hlt => hall i (by omega) (by omega), rfl⟩

theorem copyAcceleratorTable_eq_some {mem : Nat → Bool} {pac copy : AccelTable}
    : copyAcceleratorTable true mem pac = some copy
        ↔ (pac.items.Pairwise fun newer older => newer.hits older.key older.keymask = false)
          ∧ (∀ i < pac.items.length, mem i = true) ∧ copy = ⟨pac.hwnd, pac.items.reverse⟩ := by
  rw [copyAcceleratorTable, if_pos rfl, Option.map_eq_some_iff]
  simp only [copyItems_eq_some]
  constructor
  . rintro ⟨items, ⟨⟨-, hapart⟩, hall, rfl⟩, rfl⟩
    exact ⟨hapart, by simpa using hall, by simp⟩
  . rintro ⟨hapart, hall, rfl⟩
    exact ⟨_, ⟨⟨by simp, hapart⟩, by simpa using hall, rfl⟩, by simp⟩

theorem translateAccelerator_reverse (pac : AccelTable)
    : (∀ hwnd message wParam lParam,
          translateAccelerator ⟨pac.hwnd, pac.items.reverse⟩ hwnd message wParam lParam
            = translateAccelerator pac hwnd message wParam lParam)
        ↔ ∀ message wParam lParam key, messageKey wParam message = some key →
          params pac.items key lParam = params pac.items.reverse key lParam := by
  constructor
  . intro h message wParam lParam key hkey
    have hmessage := h pac.hwnd message wParam lParam
    simp only [translateAccelerator, ne_eq, not_true_eq_false, if_false, hkey, Option.bind_some] at hmessage
    cases hnew : params pac.items key lParam <;> cases hold : params pac.items.reverse key lParam <;> simp_all
  intro h hwnd message wParam lParam
  have hends := h message wParam lParam
  unfold translateAccelerator
  cases hkey : messageKey wParam message with
  | none => rfl
  | some key => rw [Option.bind_some, Option.bind_some, hends key hkey]

/-- The copy of a table has its meaning exactly when re-inserting the items the other way round changes nothing. -/
theorem copyOk_iff (hwnd : Nat) (calls : List AccelCall) : CopyOk (built hwnd calls) ↔ CopySafe (built hwnd calls) := by
  generalize built hwnd calls = pac
  constructor
  . intro h
    have hsome : copyAcceleratorTable true (fun _ => true) pac ≠ none := by
      intro hnone
      obtain ⟨_, hfalse⟩ := h.succeeds _ hnone
      cases hfalse
    obtain ⟨copy, hcopy⟩ := Option.ne_none_iff_exists'.mp hsome
    obtain ⟨hapart, -, heq⟩ := copyAcceleratorTable_eq_some.mp hcopy
    exact ⟨hapart, (translateAccelerator_reverse pac).mp (heq ▸ h.same _ copy hcopy)⟩
  intro h
  constructor
  . intro mem hnone
    by_contra hmem
    simp only [not_exists, Bool.not_eq_false] at hmem
    rw [copyAcceleratorTable_eq_some.mpr ⟨h.apart, fun i _ => hmem i, rfl⟩] at hnone
    cases hnone
  . intro mem copy hcopy
    obtain ⟨-, -, rfl⟩ := copyAcceleratorTable_eq_some.mp hcopy
    exact (translateAccelerator_reverse pac).mpr h.ends

/-- An accelerator for the left control key, and then one for either control key. -/
theorem not_copyOk
    : ¬CopyOk (built 1 [.add true ⟨0x11E, 0x20, 1, 0⟩, .add true ⟨0x11E, 0x30, 2, 0⟩]) := by
  intro h
  obtain ⟨_, hfalse⟩ := h.succeeds (fun _ => true) (by decide)
  cases hfalse

end MiniGui.AccelKey
