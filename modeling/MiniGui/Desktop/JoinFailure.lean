import MiniGui.Desktop.Members

namespace MiniGui.Members

variable {κ : Type} [DecidableEq κ]

def MAX_NR_LAYERS : Nat := 64

structure Resources where
  nrLayers : Nat
  available : Bool

structure JoinedClientInfo (κ : Type) where
  cliId : Nat
  layer : Option κ
  zoShmid : Int

namespace Server

section Join

-- The shared memory segments of the layers.
variable (shmid : κ → Int)

def allocLayer (s : Server κ) (resources : Resources) (name : κ) : Option κ × Server κ :=
  if resources.nrLayers ≥ MAX_NR_LAYERS then
    (none, s)
  else if resources.available then
    (some name, { s.setLayer name ⟨0, 0⟩ with topmost := name })
  else
    (none, s)

/--
`do_client_join_layer`; no result stands for an access through the null pointer.
-/
def joinLayer (s : Server κ) (cli : Nat) (layer : Option κ) : Option (Server κ × JoinedClientInfo κ) :=
  if (s.clients cli).layer = layer then
    -- duplicated calling of JoinLayer
    match layer with
    | none => none
    | some name => some (s, { cliId := cli, layer := some name, zoShmid := shmid name })
  else
    match layer with
    | none => none
    | some name =>
      match s.layers name with
      | none => none
      | some found =>
        some (s.doClientJoinLayer cli name found, { cliId := cli, layer := some name, zoShmid := shmid name })

def requestLayer (s : Server κ) (resources : Resources) (cli : Nat) (name : κ)
    : Option (Server κ × JoinedClientInfo κ) :=
  match s.layers name with
  | some _ => s.joinLayer shmid cli (some name)
  | none =>
    let created := s.allocLayer resources name
    created.2.joinLayer shmid cli created.1

end Join

/--
`client_alloc`; `newHead` is what `malloc` or `realloc` returns, and `0` is the null pointer.
-/
def clientGrow (s : Server κ) (newHead : Int) : Bool × Server κ :=
  if s.base = 0 then
    if newHead = 0 then
      (false, s)
    else
      (true,
        { s with
          base := newHead
          clients := fun i => if s.clientSize ≤ i ∧ i < s.clientSize + NALLOC then Client.free else s.clients i
          clientSize := s.clientSize + NALLOC })
  else if newHead = 0 then
    (false, { s with base := 0 })
  else
    (true, s.clientAlloc newHead)

def takeFree (s : Server κ) (fd : Int) (i : Nat) : Int × Server κ :=
  (i, s.setClient i { s.clients i with fd := fd, layer := none })

def addClient (s : Server κ) (fd : Int) (newHeads : Int × Int) : Int × Server κ :=
  let first := if s.base = 0 then s.clientGrow newHeads.1 else (true, s)
  if first.1 = false then
    (-1, first.2)
  else
    match first.2.findFree with
    | some i => first.2.takeFree fd i
    | none =>
      let grown := first.2.clientGrow newHeads.2
      if grown.1 = false then
        (-1, grown.2)
      else
        match grown.2.findFree with
        | some i => grown.2.takeFree fd i
        | none => (-1, grown.2)

section Failures

variable {shmid : κ → Int} {s : Server κ}

def JoinFails (s : Server κ) (resources : Resources) (name : κ) : Prop :=
  s.layers name = none ∧ (resources.nrLayers ≥ MAX_NR_LAYERS ∨ resources.available = false)

def JoinHarmless (shmid : κ → Int) (s : Server κ) (resources : Resources) (cli : Nat) (name : κ) : Prop :=
  ∃ info, s.requestLayer shmid resources cli name = some (s, info) ∧ info.layer = none

def AddFails (s : Server κ) (newHeads : Int × Int) : Prop :=
  s.base ≠ 0 ∧ s.findFree = none ∧ newHeads.2 = 0

def AddHarmless (s : Server κ) (fd : Int) (newHeads : Int × Int) : Prop :=
  s.addClient fd newHeads = (-1, s)

theorem requestLayer_crashes {resources : Resources} {name : κ} (h : JoinFails s resources name) (cli : Nat)
    : s.requestLayer shmid resources cli name = none := by
  have hnull : s.allocLayer resources name = (none, s) := by
    rw [allocLayer]
    rcases h.2 with hmany | hnone
    . rw [if_pos hmany]
    . rw [hnone, if_neg Bool.false_ne_true]
      split <;> rfl
  rw [requestLayer, h.1]
  dsimp only
  rw [hnull, joinLayer]
  split <;> rfl

omit [DecidableEq κ] in
theorem addClient_loses {newHeads : Int × Int} (h : AddFails s newHeads) (fd : Int)
    : s.addClient fd newHeads = (-1, { s with base := 0 }) := by
  rcases h with ⟨hbase, hfull, hnull⟩
  have hgrow : s.clientGrow newHeads.2 = (false, { s with base := 0 }) := by
    rw [clientGrow, if_neg hbase, if_pos hnull]
  rw [addClient]
  rw [if_neg hbase]
  rw [if_neg (by simp), hfull]
  rw [hgrow, if_pos rfl]

/--
No failed join and no failed growth is harmless.
-/
theorem failures_not_harmless (shmid : κ → Int) (s : Server κ)
    : (∀ resources cli name, JoinFails s resources name → ¬JoinHarmless shmid s resources cli name)
      ∧ ∀ fd newHeads, AddFails s newHeads → ¬AddHarmless s fd newHeads := by
  constructor
  . rintro resources cli name hfails ⟨info, hsame, _⟩
    rw [requestLayer_crashes hfails cli] at hsame
    cases hsame
  intro fd newHeads hfails hsame
  rw [AddHarmless, addClient_loses hfails fd] at hsame
  have hbase := congrArg (fun r => r.2.base) hsame
  exact hfails.1 hbase.symm

def full : Server Bool :=
  { startup 100 false with clients := fun i => { fd := i, layer := none, next := 0, prev := 0 } }

theorem failures_not_harmless_full
    : ¬JoinHarmless (fun _ => 1) full ⟨64, true⟩ 1 true ∧ ¬AddHarmless full 9 (500, 0) :=
  ⟨(failures_not_harmless (fun _ => 1) full).1 ⟨64, true⟩ 1 true ⟨rfl, Or.inl (le_refl _)⟩,
    (failures_not_harmless (fun _ => 1) full).2 9 (500, 0) ⟨by decide, by decide, rfl⟩⟩

theorem not_joinHarmless : ¬∀ (s : Server Bool) resources cli name, JoinFails s resources name
        → JoinHarmless (fun _ => 1) s resources cli name := by
  intro h
  have hfails : JoinFails (startup 100 false) ⟨64, true⟩ true := ⟨rfl, Or.inl (le_refl _)⟩
  rcases h (startup 100 false) ⟨64, true⟩ 1 true hfails with ⟨info, hsame, _⟩
  rw [requestLayer_crashes hfails 1] at hsame
  cases hsame

end Failures

end Server

end MiniGui.Members
