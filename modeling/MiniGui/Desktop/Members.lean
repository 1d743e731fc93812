import MiniGui.Library.DList
import MiniGui.Library.Reach

/-!
The clients of the server and the lists of the layers that they joined (`server/client.c`, `server/layer.c`). The
links of the lists are addresses in the array `mgClients`, which moves when it grows.
-/

namespace MiniGui.Members

open Function List Option

open DList Reach

variable {κ : Type} [DecidableEq κ]

structure Client (κ : Type) where
  fd : Int
  layer : Option κ
  next : Int
  prev : Int

structure Layer where
  cliHead : Int
  cliActive : Int
deriving DecidableEq, Repr

structure Server (κ : Type) where
  clients : Nat → Client κ
  clientSize : Nat
  base : Int
  layers : κ → Option Layer
  topmost : κ

def NALLOC : Nat := 4

def sizeofClient : Int := 56

def Client.free : Client κ :=
  { fd := -1, layer := none, next := 0, prev := 0 }

namespace Server

def address (s : Server κ) (i : Nat) : Int :=
  s.base + i * sizeofClient

def place (s : Server κ) (p : Int) : Option Nat :=
  if p = 0 then none else some ((p - s.base) / sizeofClient).toNat

def startup (base : Int) (topmost : κ) : Server κ where
  clients := fun i => if i = 0 then { fd := 0, layer := some topmost, next := 0, prev := 0 } else Client.free
  clientSize := NALLOC
  base := base
  layers := fun name => if name = topmost then some ⟨0, 0⟩ else none
  topmost := topmost

def setClient (s : Server κ) (i : Nat) (client : Client κ) : Server κ :=
  { s with clients := update s.clients i client }

def setNext (s : Server κ) (p value : Int) : Server κ :=
  match s.place p with
  | some i => s.setClient i { s.clients i with next := value }
  | none => s

def setPrev (s : Server κ) (p value : Int) : Server κ :=
  match s.place p with
  | some i => s.setClient i { s.clients i with prev := value }
  | none => s

def setLayer (s : Server κ) (name : κ) (layer : Layer) : Server κ :=
  { s with layers := update s.layers name (some layer) }

def offPointer (off p : Int) : Int :=
  if p ≠ 0 then p + off else p

def offsetPointers (s : Server κ) (size : Nat) (off : Int) : Server κ :=
  if off = 0 then
    s
  else
    { s with
      clients := fun i =>
        if i < size then
          { s.clients i with next := offPointer off (s.clients i).next, prev := offPointer off (s.clients i).prev }
        else
          s.clients i
      layers := fun name =>
        (s.layers name).map fun layer =>
          { cliHead := offPointer off layer.cliHead, cliActive := offPointer off layer.cliActive } }

def clientAlloc (s : Server κ) (newHead : Int) : Server κ :=
  let s := { s.offsetPointers s.clientSize (newHead - s.base) with base := newHead }
  { s with
    clients := fun i => if s.clientSize ≤ i ∧ i < s.clientSize + NALLOC then Client.free else s.clients i
    clientSize := s.clientSize + NALLOC }

def findFree (s : Server κ) : Option Nat :=
  (List.range s.clientSize).find? (fun i => (s.clients i).fd = -1)

/--
Takes the first available slot; the array is full when there is none.
-/
def clientAdd (s : Server κ) (fd newHead : Int) : Server κ :=
  match s.findFree with
  | some i => s.setClient i { s.clients i with fd := fd, layer := none }
  | none =>
    let s := s.clientAlloc newHead
    match s.findFree with
    | some i => s.setClient i { s.clients i with fd := fd, layer := none }
    | none => s

def doClientJoinLayer (s : Server κ) (cli : Nat) (name : κ) (layer : Layer) : Server κ :=
  if (s.clients cli).layer = some name then
    s
  else
    let s := s.setClient cli { s.clients cli with layer := some name, prev := 0, next := layer.cliHead }
    let s := s.setPrev layer.cliHead (s.address cli)
    s.setLayer name { layer with cliHead := s.address cli }

def clientJoinLayer (s : Server κ) (cli : Nat) (name : κ) : Server κ :=
  match s.layers name with
  | some layer => s.doClientJoinLayer cli name layer
  | none => { s.setLayer name ⟨0, 0⟩ with topmost := name }.doClientJoinLayer cli name ⟨0, 0⟩

def unlink (s : Server κ) (cli : Nat) (name : κ) (layer : Layer) : Server κ :=
  let s := s.setPrev (s.clients cli).next (s.clients cli).prev
  let s := s.setNext (s.clients cli).prev (s.clients cli).next
  let cliHead := if layer.cliHead = s.address cli then (s.clients cli).next else layer.cliHead
  let cliActive :=
    if layer.cliActive = s.address cli then
      if (s.clients cli).next = 0 then cliHead else (s.clients cli).next
    else
      layer.cliActive
  s.setLayer name ⟨cliHead, cliActive⟩

def clientDel (s : Server κ) (cli : Nat) : Server κ :=
  let s :=
    match (s.clients cli).layer with
    | some name =>
      match s.layers name with
      | some layer => s.unlink cli name layer
      | none => s
    | none => s
  s.setClient cli Client.free

/--
`none` is the null pointer.
-/
def setActiveClient (s : Server κ) (client : Option Nat) : Server κ :=
  match client with
  | some i =>
    match (s.clients i).layer with
    | some name =>
      match s.layers name with
      | some layer => s.setLayer name { layer with cliActive := s.address i }
      | none => s
    | none => s
  | none =>
    match s.layers s.topmost with
    | some layer => s.setLayer s.topmost { layer with cliActive := 0 }
    | none => s

end Server

inductive Action (κ : Type) where
  | clientAdd (fd newHead : Int)
  | clientJoinLayer (cli : Nat) (name : κ)
  | clientDel (cli : Nat)
  | setActiveClient (client : Option Nat)

namespace Server

def exec (s : Server κ) (a : Action κ) : Server κ :=
  match a with
  | .clientAdd fd newHead => s.clientAdd fd newHead
  | .clientJoinLayer cli name => s.clientJoinLayer cli name
  | .clientDel cli => s.clientDel cli
  | .setActiveClient client => s.setActiveClient client

def Connected (s : Server κ) (i : Nat) : Prop :=
  i ≠ 0 ∧ i < s.clientSize ∧ (s.clients i).fd ≠ -1

def Enabled (s : Server κ) : Action κ → Prop
  | .clientAdd fd newHead => 0 ≤ fd ∧ 0 < newHead
  | .clientJoinLayer cli _ => s.Connected cli
  | .clientDel cli => s.Connected cli
  | .setActiveClient client => ∀ i, client = some i → s.Connected i

def step (s : Server κ) (a : Action κ) (s' : Server κ) : Prop :=
  s.Enabled a ∧ s' = s.exec a

def nextAt (s : Server κ) (a : Option Nat) : Option Nat :=
  a.bind fun i => s.place (s.clients i).next

def prevAt (s : Server κ) (a : Option Nat) : Option Nat :=
  a.bind fun i => s.place (s.clients i).prev

def Member (s : Server κ) (name : κ) (i : Nat) : Prop :=
  s.Connected i ∧ (s.clients i).layer = some name

structure ListOf (s : Server κ) (name : κ) (layer : Layer) (l : List (Option Nat)) : Prop where
  valid : Valid none s.nextAt s.prevAt (s.place layer.cliHead) l
  mem : ∀ i, some i ∈ l ↔ s.Member name i
  active : layer.cliActive = 0 ∨ ∃ i, some i ∈ l ∧ layer.cliActive = s.address i

structure LayersOk (s : Server κ) : Prop where
  lists : ∀ name layer, s.layers name = some layer → ∃ l, s.ListOf name layer l
  layers : ∀ i name, s.Member name i → s.layers name ≠ none

def JoinsOnce (s : Server κ) : Action κ → Prop
  | .clientAdd _ _ => True
  | .clientJoinLayer cli name => (s.clients cli).layer = none ∨ (s.clients cli).layer = some name
  | .clientDel _ => True
  | .setActiveClient _ => True

section Places

variable {s : Server κ} {p v : Int} {i : Nat} {name : κ} {layer : Layer}

omit [DecidableEq κ]

@[simp]
theorem place_zero : s.place 0 = none := by
  simp [place]

theorem address_pos (h : 0 < s.base) (i : Nat) : 0 < s.address i := by
  unfold address sizeofClient
  omega

theorem place_address (h : 0 < s.base) (i : Nat) : s.place (s.address i) = some i := by
  have hpos := address_pos h i
  unfold place
  rw [if_neg (by omega)]
  unfold address sizeofClient
  rw [Option.some.injEq]
  omega

theorem nextAt_setNext
    : (s.setNext p v).nextAt = if s.place p = none then s.nextAt else update s.nextAt (s.place p) (s.place v) := by
  unfold setNext
  cases hp : s.place p with
  | none => simp
  | some j =>
    rw [if_neg (by simp)]
    funext a
    cases a with
    | none => simp [nextAt]
    | some k =>
      by_cases hk : k = j
      . rw [hk, update_self]
        simp [nextAt, setClient, place]
      . rw [update_of_ne (by simpa using hk)]
        simp [nextAt, setClient, place, hk]

theorem prevAt_setPrev
    : (s.setPrev p v).prevAt = if s.place p = none then s.prevAt else update s.prevAt (s.place p) (s.place v) := by
  unfold setPrev
  cases hp : s.place p with
  | none => simp
  | some j =>
    rw [if_neg (by simp)]
    funext a
    cases a with
    | none => simp [prevAt]
    | some k =>
      by_cases hk : k = j
      . rw [hk, update_self]
        simp [prevAt, setClient, place]
      . rw [update_of_ne (by simpa using hk)]
        simp [prevAt, setClient, place, hk]

structure SameClients (s s' : Server κ) : Prop where
  base : s'.base = s.base
  clientSize : s'.clientSize = s.clientSize
  fd : ∀ i, (s'.clients i).fd = (s.clients i).fd
  layer : ∀ i, (s'.clients i).layer = (s.clients i).layer
  layers : s'.layers = s.layers

theorem sameClients_setClient {j : Nat} {client : Client κ} (hfd : client.fd = (s.clients j).fd)
    (hlayer : client.layer = (s.clients j).layer) : SameClients s (s.setClient j client) := by
  refine ⟨rfl, rfl, ?_, ?_, rfl⟩
  . intro i
    by_cases hi : i = j
    . simp [setClient, hi, hfd]
    . simp [setClient, hi]
  intro i
  by_cases hi : i = j
  . simp [setClient, hi, hlayer]
  . simp [setClient, hi]

theorem sameClients_setNext : SameClients s (s.setNext p v) := by
  unfold setNext
  cases s.place p with
  | none => exact ⟨rfl, rfl, fun _ => rfl, fun _ => rfl, rfl⟩
  | some j => exact sameClients_setClient rfl rfl

theorem sameClients_setPrev : SameClients s (s.setPrev p v) := by
  unfold setPrev
  cases s.place p with
  | none => exact ⟨rfl, rfl, fun _ => rfl, fun _ => rfl, rfl⟩
  | some j => exact sameClients_setClient rfl rfl

theorem setPrev_next (i : Nat) : ((s.setPrev p v).clients i).next = (s.clients i).next := by
  unfold setPrev
  cases s.place p with
  | none => rfl
  | some j =>
    by_cases hi : i = j
    . simp [setClient, hi]
    . simp [setClient, hi]

theorem setNext_prev (i : Nat) : ((s.setNext p v).clients i).prev = (s.clients i).prev := by
  unfold setNext
  cases s.place p with
  | none => rfl
  | some j =>
    by_cases hi : i = j
    . simp [setClient, hi]
    . simp [setClient, hi]

theorem setPrev_prev (i : Nat)
    : ((s.setPrev p v).clients i).prev = if s.place p = some i then v else (s.clients i).prev := by
  unfold setPrev
  cases hp : s.place p with
  | none => simp
  | some j =>
    by_cases hi : i = j
    . simp [setClient, hi]
    . simp [setClient, hi, Ne.symm hi]

theorem setNext_next (i : Nat)
    : ((s.setNext p v).clients i).next = if s.place p = some i then v else (s.clients i).next := by
  unfold setNext
  cases hp : s.place p with
  | none => simp
  | some j =>
    by_cases hi : i = j
    . simp [setClient, hi]
    . simp [setClient, hi, Ne.symm hi]

end Places

end Server

def Server.Pointer (s : Server κ) (p : Int) : Prop :=
  p = 0 ∨ ∃ j < s.clientSize, p = s.address j

structure Inv (s : Server κ) : Prop where
  ok : s.LayersOk
  base : 0 < s.base
  server : 0 < s.clientSize ∧ (s.clients 0).fd ≠ -1
  links : ∀ i < s.clientSize, s.Pointer (s.clients i).next ∧ s.Pointer (s.clients i).prev
  heads : ∀ name layer, s.layers name = some layer → s.Pointer layer.cliHead ∧ s.Pointer layer.cliActive

section Steps

variable {s : Server κ} {cli : Nat} {name : κ} {layer : Layer} {l : List (Option Nat)}

omit [DecidableEq κ] in
theorem pointer_place (hbase : 0 < s.base) {p : Int} (hp : s.Pointer p)
    : (s.place p = none ∧ p = 0) ∨ ∃ j < s.clientSize, s.place p = some j ∧ p = s.address j := by
  rcases hp with hp | ⟨j, hj, hp⟩
  . rw [hp]
    exact .inl ⟨Server.place_zero, rfl⟩
  . rw [hp, Server.place_address hbase]
    exact .inr ⟨j, hj, rfl, rfl⟩

variable {s' : Server κ}

omit [DecidableEq κ] in
theorem listOf_congr (h : s.ListOf name layer l) (hbase : s'.base = s.base)
    (hnext : ∀ a ∈ l, s'.nextAt a = s.nextAt a) (hprev : ∀ a ∈ l, s'.prevAt a = s.prevAt a)
    (hmem : ∀ i, s'.Member name i ↔ s.Member name i) : s'.ListOf name layer l where
  valid := by
    have hplace : s'.place layer.cliHead = s.place layer.cliHead := by
      unfold Server.place
      rw [hbase]
    rw [hplace]
    exact h.valid.congr hnext hprev
  mem := by
    intro i
    rw [h.mem, hmem]
  active := by
    unfold Server.address
    rw [hbase]
    exact h.active

variable {name' : κ} {layer' : Layer} {newHead : Int}

omit [DecidableEq κ] in
theorem listOf_disjoint {l' : List (Option Nat)} (h : s.ListOf name layer l)
    (h' : s.ListOf name' layer' l') (hne : name' ≠ name) {i : Nat} (hi : some i ∈ l)
    : some i ∉ l' := by
  intro hi'
  have hmem := (h.mem i).mp hi
  have hmem' := (h'.mem i).mp hi'
  exact hne (Option.some.inj (hmem'.2.symm.trans hmem.2))

omit [DecidableEq κ] in
theorem some_of_mem (h : s.ListOf name layer l) {a : Option Nat} (ha : a ∈ l) : ∃ i, a = some i := by
  cases a with
  | none => exact absurd rfl (h.valid.ne_nil ha)
  | some i => exact ⟨i, rfl⟩

structure Joined (s s' : Server κ) (cli : Nat) (name : κ) (layer : Layer) : Prop where
  base : s'.base = s.base
  clientSize : s'.clientSize = s.clientSize
  fd : ∀ i, (s'.clients i).fd = (s.clients i).fd
  joined : ∀ i, (s'.clients i).layer = if i = cli then some name else (s.clients i).layer
  heads : s'.layers = update s.layers name (some { layer with cliHead := s.address cli })
  next : ∀ i, (s'.clients i).next = if i = cli then layer.cliHead else (s.clients i).next
  prev : ∀ i, (s'.clients i).prev
    = if s.place layer.cliHead = some i then s.address cli else if i = cli then 0 else (s.clients i).prev

theorem doClientJoinLayer_joined (h : (s.clients cli).layer ≠ some name)
    : Joined s (s.doClientJoinLayer cli name layer) cli name layer := by
  unfold Server.doClientJoinLayer
  rw [if_neg h]
  simp only
  generalize hs1 : s.setClient cli { s.clients cli with layer := some name, prev := 0, next := layer.cliHead } = s1
  have hsame : Server.SameClients s1 (s1.setPrev layer.cliHead (s1.address cli)) := Server.sameClients_setPrev
  have hbase : s1.base = s.base := by
    rw [← hs1]
    rfl
  have haddress : s1.address cli = s.address cli := by
    unfold Server.address
    rw [hbase]
  have hplace : s1.place layer.cliHead = s.place layer.cliHead := by
    unfold Server.place
    rw [hbase]
  have hclients : ∀ i, s1.clients i
      = if i = cli then { s.clients cli with layer := some name, prev := 0, next := layer.cliHead }
        else s.clients i := by
    intro i
    rw [← hs1]
    by_cases hi : i = cli
    . simp [Server.setClient, hi]
    . simp [Server.setClient, hi]
  constructor
  . rw [← hbase]
    exact hsame.base
  . have hsize : s1.clientSize = s.clientSize := by
      rw [← hs1]
      rfl
    rw [← hsize]
    exact hsame.clientSize
  . intro i
    refine (hsame.fd i).trans ?_
    rw [hclients]
    split
    . next hi => rw [hi]
    . rfl
  . intro i
    refine (hsame.layer i).trans ?_
    rw [hclients]
    split <;> rfl
  . have hlayers : s1.layers = s.layers := by
      rw [← hs1]
      rfl
    unfold Server.setLayer
    simp only
    rw [hsame.layers, hlayers]
    congr 3
    exact congrArg (fun b => b + (cli : Int) * sizeofClient) (hsame.base.trans hbase)
  . intro i
    refine (Server.setPrev_next i).trans ?_
    rw [hclients]
    split <;> rfl
  intro i
  refine (Server.setPrev_prev i).trans ?_
  rw [hplace, haddress, hclients]
  split
  . rfl
  . split <;> rfl

theorem Inv.setLayer (h : Inv s) (topmost : κ) (hlist : ∃ l, s.ListOf name layer' l)
    (hhead : s.Pointer layer'.cliHead ∧ s.Pointer layer'.cliActive)
    : Inv { s.setLayer name layer' with topmost := topmost } := by
  have hlayers : ∀ name', ({ s.setLayer name layer' with topmost := topmost } : Server κ).layers name'
      = if name' = name then some layer' else s.layers name' := by
    intro name'
    by_cases hname : name' = name
    . simp [Server.setLayer, hname]
    . simp [Server.setLayer, hname]
  have hsame : ∀ name' layer'' l, s.ListOf name' layer'' l
      → ({ s.setLayer name layer' with topmost := topmost } : Server κ).ListOf name' layer'' l := by
    intro name' layer'' l hl
    exact listOf_congr hl rfl (fun _ _ => rfl) (fun _ _ => rfl) (fun _ => Iff.rfl)
  constructor
  . constructor
    . intro name' layer'' hlayer
      rw [hlayers] at hlayer
      split at hlayer
      . next hname =>
        rw [Option.some.injEq] at hlayer
        rw [← hlayer, hname]
        rcases hlist with ⟨l, hl⟩
        exact ⟨l, hsame _ _ l hl⟩
      . rcases h.ok.lists name' layer'' hlayer with ⟨l, hl⟩
        exact ⟨l, hsame _ _ l hl⟩
    intro i name' hi
    rw [hlayers]
    split
    . simp
    . exact h.ok.layers i name' hi
  . exact h.base
  . exact h.server
  . exact h.links
  intro name' layer'' hlayer
  rw [hlayers] at hlayer
  split at hlayer
  . rw [Option.some.injEq] at hlayer
    rw [← hlayer]
    exact hhead
  . exact h.heads name' layer'' hlayer

theorem Joined.nextAt (h : Joined s s' cli name layer) (i : Nat)
    : s'.nextAt (some i) = if i = cli then s.place layer.cliHead else s.nextAt (some i) := by
  simp only [Server.nextAt, bind_some, Server.place, h.base, h.next]
  split <;> rfl

theorem Joined.prevAt (hbase : 0 < s.base) (h : Joined s s' cli name layer) (i : Nat)
    : s'.prevAt (some i)
        =
      if s.place layer.cliHead = some i then some cli else if i = cli then none else s.prevAt (some i) := by
  have hplace : ∀ p, s'.place p = s.place p := by
    intro p
    unfold Server.place
    rw [h.base]
  simp only [Server.prevAt, bind_some, hplace, h.prev]
  split
  . exact Server.place_address hbase cli
  . split
    . exact Server.place_zero
    . rfl

theorem Joined.member (h : Joined s s' cli name layer) (hnone : (s.clients cli).layer = none)
    (hcon : s.Connected cli) (name' : κ) (i : Nat)
    : s'.Member name' i ↔ s.Member name' i ∨ (i = cli ∧ name' = name) := by
  unfold Server.Member Server.Connected
  rw [h.clientSize, h.fd, h.joined]
  by_cases hi : i = cli
  . rw [hi, if_pos rfl, hnone]
    simp only [reduceCtorEq, and_false, true_and, false_or, Option.some.injEq]
    constructor
    . intro hmem
      exact hmem.2.symm
    . intro hname
      exact ⟨hcon, hname.symm⟩
  . simp [hi]

theorem Inv.joined (h : Inv s) (hjoined : Joined s s' cli name layer)
    (hlayer : s.layers name = some layer) (hnone : (s.clients cli).layer = none) (hcon : s.Connected cli)
    : Inv s' := by
  rcases h.ok.lists name layer hlayer with ⟨l, hl⟩
  have hplace : ∀ p, s'.place p = s.place p := by
    intro p
    unfold Server.place
    rw [hjoined.base]
  have haddress : ∀ i, s'.address i = s.address i := by
    intro i
    unfold Server.address
    rw [hjoined.base]
  have hpointer : ∀ p, s'.Pointer p ↔ s.Pointer p := by
    intro p
    unfold Server.Pointer
    simp only [hjoined.clientSize, haddress]
  have hnew : ∀ name' (l' : List (Option Nat)), (∀ i, some i ∈ l' ↔ s.Member name' i) → some cli ∉ l' := by
    intro name' l' hl' hmem
    have hmem' := ((hl' cli).mp hmem).2
    rw [hnone] at hmem'
    simp at hmem'
  have hfirst := hl.valid.first_mem
  have hjoin : s'.ListOf name { layer with cliHead := s.address cli } (some cli :: l) := by
    constructor
    . rw [hplace, Server.place_address h.base]
      apply hl.valid.cons (by simp) (hnew name l hl.mem)
      . intro a ha
        have hsome : ∃ i, a = some i := by
          rcases ha with ha | ha
          . exact ⟨cli, ha⟩
          . exact some_of_mem hl ha
        rcases hsome with ⟨i, hi⟩
        rw [hi, hjoined.nextAt]
        simp only [Option.some.injEq]
      intro a ha
      have hsome : ∃ i, a = some i := by
        rcases ha with ha | ha
        . exact ⟨cli, ha⟩
        . exact some_of_mem hl ha
      rcases hsome with ⟨i, hi⟩
      rw [hi, hjoined.prevAt h.base]
      simp only [Option.some.injEq]
      by_cases hcli : i = cli
      . have hne : s.place layer.cliHead ≠ some i := by
          intro heq
          rcases hfirst with hnil | hmem
          . rw [hnil] at heq
            simp at heq
          . rw [heq, hcli] at hmem
            exact hnew name l hl.mem hmem
        rw [if_neg hne, if_pos hcli, if_pos hcli]
      . rw [if_neg hcli, if_neg hcli]
        by_cases hhead : s.place layer.cliHead = some i
        . rw [if_pos hhead, if_pos hhead.symm]
        . rw [if_neg hhead, if_neg (Ne.symm hhead)]
    . intro i
      rw [hjoined.member hnone hcon, mem_cons, hl.mem, Option.some.injEq]
      tauto
    rcases hl.active with hzero | ⟨i, hi, hactive⟩
    . exact .inl hzero
    . refine .inr ⟨i, by simp [hi], ?_⟩
      rw [haddress]
      exact hactive
  constructor
  . constructor
    . intro name' layer' hlayer'
      rw [hjoined.heads] at hlayer'
      by_cases hname : name' = name
      . rw [hname, update_self, Option.some.injEq] at hlayer'
        rw [hname, ← hlayer']
        exact ⟨_, hjoin⟩
      rw [update_of_ne hname] at hlayer'
      rcases h.ok.lists name' layer' hlayer' with ⟨l', hl'⟩
      refine ⟨l', listOf_congr hl' hjoined.base ?_ ?_ ?_⟩
      . intro a ha
        rcases some_of_mem hl' ha with ⟨i, hi⟩
        rw [hi] at ha ⊢
        rw [hjoined.nextAt, if_neg]
        intro hcli
        rw [hcli] at ha
        exact hnew name' l' hl'.mem ha
      . intro a ha
        rcases some_of_mem hl' ha with ⟨i, hi⟩
        rw [hi] at ha ⊢
        rw [hjoined.prevAt h.base, if_neg, if_neg]
        . intro hcli
          rw [hcli] at ha
          exact hnew name' l' hl'.mem ha
        intro hhead
        rcases hfirst with hnil | hmem
        . rw [hnil] at hhead
          simp at hhead
        . rw [hhead] at hmem
          exact listOf_disjoint hl hl' hname hmem ha
      . intro i
        rw [hjoined.member hnone hcon]
        tauto
    intro i name' hi
    rw [hjoined.heads]
    by_cases hname : name' = name
    . rw [hname]
      simp
    rw [update_of_ne hname]
    rcases (hjoined.member hnone hcon name' i).mp hi with hold | ⟨_, hname'⟩
    . exact h.ok.layers i name' hold
    . exact absurd hname' hname
  . rw [hjoined.base]
    exact h.base
  . rw [hjoined.clientSize, hjoined.fd]
    exact h.server
  . intro i hi
    rw [hjoined.clientSize] at hi
    have hhead := h.heads name layer hlayer
    rw [hpointer, hpointer, hjoined.next, hjoined.prev]
    constructor
    . split
      . exact hhead.1
      . exact (h.links i hi).1
    split
    . exact .inr ⟨cli, hcon.2.1, rfl⟩
    . split
      . exact .inl rfl
      . exact (h.links i hi).2
  intro name' layer' hlayer'
  rw [hjoined.heads] at hlayer'
  rw [hpointer, hpointer]
  by_cases hname : name' = name
  . rw [hname, update_self, Option.some.injEq] at hlayer'
    rw [← hlayer']
    exact ⟨.inr ⟨cli, hcon.2.1, rfl⟩, (h.heads name layer hlayer).2⟩
  . rw [update_of_ne hname] at hlayer'
    exact h.heads name' layer' hlayer'

theorem Inv.clientJoinLayer (h : Inv s) (hcon : s.Connected cli)
    (hok : (s.clients cli).layer = none ∨ (s.clients cli).layer = some name)
    : Inv (s.clientJoinLayer cli name) := by
  unfold Server.clientJoinLayer
  rcases hok with hnone | hsame
  . have hne : (s.clients cli).layer ≠ some name := by
      rw [hnone]
      simp
    cases hlayer : s.layers name with
    | some layer => exact h.joined (doClientJoinLayer_joined hne) hlayer hnone hcon
    | none =>
      have hempty : s.ListOf name ⟨0, 0⟩ [] := by
        constructor
        . simp
        . intro i
          simp only [not_mem_nil, false_iff]
          intro hi
          exact h.ok.layers i name hi hlayer
        . exact .inl rfl
      have halloc := h.setLayer name ⟨[], hempty⟩ ⟨.inl rfl, .inl rfl⟩
      exact halloc.joined (doClientJoinLayer_joined hne) (by simp [Server.setLayer]) hnone hcon
  have hlayer := h.ok.layers cli name ⟨hcon, hsame⟩
  cases hlayer' : s.layers name with
  | some layer =>
    unfold Server.doClientJoinLayer
    simp only
    rw [if_pos hsame]
    exact h
  | none => exact absurd hlayer' hlayer

theorem Inv.setActiveClient (h : Inv s) {client : Option Nat} (hen : ∀ i, client = some i → s.Connected i)
    : Inv (s.setActiveClient client) := by
  unfold Server.setActiveClient
  cases client with
  | some i =>
    have hcon := hen i rfl
    simp only
    cases hlayer : (s.clients i).layer with
    | none => exact h
    | some name =>
      simp only
      cases hlayers : s.layers name with
      | none => exact h
      | some layer =>
        rcases h.ok.lists name layer hlayers with ⟨l, hl⟩
        have hactive : s.ListOf name { layer with cliActive := s.address i } l :=
          ⟨hl.valid, hl.mem, .inr ⟨i, (hl.mem i).mpr ⟨hcon, hlayer⟩, rfl⟩⟩
        exact h.setLayer s.topmost ⟨l, hactive⟩ ⟨(h.heads name layer hlayers).1, .inr ⟨i, hcon.2.1, rfl⟩⟩
  | none =>
    simp only
    cases hlayers : s.layers s.topmost with
    | none => exact h
    | some layer =>
      rcases h.ok.lists s.topmost layer hlayers with ⟨l, hl⟩
      have hactive : s.ListOf s.topmost { layer with cliActive := 0 } l := ⟨hl.valid, hl.mem, .inl rfl⟩
      exact h.setLayer s.topmost ⟨l, hactive⟩ ⟨(h.heads s.topmost layer hlayers).1, .inl rfl⟩

omit [DecidableEq κ] in
theorem Inv.setClient (h : Inv s) (client : Client κ) (hbefore : ∀ name, ¬s.Member name cli)
    (hafter : client.fd = -1 ∨ client.layer = none) (hserver : cli ≠ 0)
    (hlinks : s.Pointer client.next ∧ s.Pointer client.prev) : Inv (s.setClient cli client) := by
  have hmember : ∀ name i, (s.setClient cli client).Member name i ↔ s.Member name i := by
    intro name i
    by_cases hi : i = cli
    . rw [hi]
      constructor
      . intro hmem
        exfalso
        simp only [Server.Member, Server.Connected, Server.setClient, update_self] at hmem
        rcases hafter with hfd | hnone
        . exact hmem.1.2.2 hfd
        . rw [hnone] at hmem
          simp at hmem
      . intro hmem
        exact absurd hmem (hbefore name)
    . simp [Server.Member, Server.Connected, Server.setClient, hi]
  have hlist : ∀ name layer l, s.ListOf name layer l → (s.setClient cli client).ListOf name layer l := by
    intro name layer l hl
    have hne : ∀ a ∈ l, a ≠ some cli := by
      intro a ha heq
      rw [heq, hl.mem] at ha
      exact hbefore name ha
    have hbase : (s.setClient cli client).base = s.base := rfl
    apply listOf_congr hl hbase _ _ (hmember name)
    . intro a ha
      rcases some_of_mem hl ha with ⟨i, hi⟩
      have hi' := hne a ha
      rw [hi] at hi' ⊢
      simp only [Server.nextAt, Server.setClient, bind_some]
      rw [update_of_ne (by simpa using hi')]
      rfl
    intro a ha
    rcases some_of_mem hl ha with ⟨i, hi⟩
    have hi' := hne a ha
    rw [hi] at hi' ⊢
    simp only [Server.prevAt, Server.setClient, bind_some]
    rw [update_of_ne (by simpa using hi')]
    rfl
  constructor
  . constructor
    . intro name layer hlayer
      rcases h.ok.lists name layer hlayer with ⟨l, hl⟩
      exact ⟨l, hlist name layer l hl⟩
    . intro i name hi
      exact h.ok.layers i name ((hmember name i).mp hi)
  . exact h.base
  . simp only [Server.setClient]
    rw [update_of_ne (Ne.symm hserver)]
    exact h.server
  . intro i hi
    by_cases hcli : i = cli
    . rw [hcli]
      simp only [Server.setClient, update_self]
      exact hlinks
    . simp only [Server.setClient]
      rw [update_of_ne hcli]
      exact h.links i hi
  . exact h.heads

omit [DecidableEq κ] in
theorem Server.findFree_some {i : Nat} (h : s.findFree = some i) : i < s.clientSize ∧ (s.clients i).fd = -1 := by
  unfold Server.findFree at h
  have hmem := mem_of_find?_eq_some h
  have hfd := find?_some h
  exact ⟨mem_range.mp hmem, by simpa using hfd⟩

omit [DecidableEq κ] in
theorem Inv.occupy (h : Inv s) {i : Nat} (hfree : s.findFree = some i) (fd : Int)
    : Inv (s.setClient i { s.clients i with fd := fd, layer := none }) := by
  have hi := Server.findFree_some hfree
  apply h.setClient
  . intro name hmem
    exact hmem.1.2.2 hi.2
  . exact .inr rfl
  . intro hzero
    rw [hzero] at hi
    exact h.server.2 hi.2
  . exact h.links i hi.1

omit [DecidableEq κ] in
theorem clientAlloc_clients (s : Server κ) (newHead : Int) {i : Nat} (hi : i < s.clientSize)
    : (s.clientAlloc newHead).clients i
        =
      { s.clients i with
        next := Server.offPointer (newHead - s.base) (s.clients i).next
        prev := Server.offPointer (newHead - s.base) (s.clients i).prev } := by
  unfold Server.clientAlloc Server.offsetPointers
  by_cases hoff : newHead - s.base = 0
  . simp only [hoff, if_true]
    rw [if_neg (by omega)]
    simp [Server.offPointer]
  . simp only [hoff, if_false]
    rw [if_neg (by omega), if_pos hi]

omit [DecidableEq κ] in
theorem clientAlloc_layers (s : Server κ) (newHead : Int) (name : κ)
    : (s.clientAlloc newHead).layers name
        =
      (s.layers name).map fun layer =>
        { cliHead := Server.offPointer (newHead - s.base) layer.cliHead
          cliActive := Server.offPointer (newHead - s.base) layer.cliActive } := by
  unfold Server.clientAlloc Server.offsetPointers
  by_cases hoff : newHead - s.base = 0
  . simp only [hoff, if_true]
    simp [Server.offPointer]
  . simp only [hoff, if_false]

omit [DecidableEq κ] in
theorem Inv.clientAlloc (h : Inv s) (hpos : 0 < newHead) : Inv (s.clientAlloc newHead) := by
  have hbase : (s.clientAlloc newHead).base = newHead := rfl
  have hsize : (s.clientAlloc newHead).clientSize = s.clientSize + NALLOC := by
    unfold Server.clientAlloc Server.offsetPointers
    split <;> rfl
  have hfree : ∀ i, ¬i < s.clientSize → i < s.clientSize + NALLOC → (s.clientAlloc newHead).clients i = Client.free := by
    intro i hi hlt
    unfold Server.clientAlloc Server.offsetPointers
    split
    . exact if_pos ⟨Nat.le_of_not_lt hi, hlt⟩
    . exact if_pos ⟨Nat.le_of_not_lt hi, hlt⟩
  have hplace : ∀ p, s.Pointer p
      → (s.clientAlloc newHead).place (Server.offPointer (newHead - s.base) p) = s.place p
        ∧ (s.clientAlloc newHead).Pointer (Server.offPointer (newHead - s.base) p) := by
    intro p hp
    rcases hp with hp | ⟨j, hj, hp⟩
    . rw [hp]
      exact ⟨by simp [Server.offPointer], .inl (by simp [Server.offPointer])⟩
    have hne : p ≠ 0 := by
      have hpos' := Server.address_pos h.base j
      omega
    have hmoved : Server.offPointer (newHead - s.base) p = (s.clientAlloc newHead).address j := by
      rw [Server.offPointer, if_pos hne, hp]
      unfold Server.address
      rw [hbase]
      omega
    rw [hmoved, hp, Server.place_address hpos, Server.place_address h.base]
    refine ⟨rfl, .inr ⟨j, ?_, rfl⟩⟩
    rw [hsize]
    omega
  have hmember : ∀ name i, (s.clientAlloc newHead).Member name i ↔ s.Member name i := by
    intro name i
    unfold Server.Member Server.Connected
    rw [hsize]
    by_cases hi : i < s.clientSize
    . rw [clientAlloc_clients s newHead hi]
      have hi' : i < s.clientSize + NALLOC := by omega
      simp [hi, hi']
    constructor
    . rintro ⟨⟨_, hlt, hfd⟩, _⟩
      rw [hfree i hi hlt] at hfd
      exact absurd rfl hfd
    . rintro ⟨⟨_, hlt, _⟩, _⟩
      exact absurd hlt hi
  constructor
  . constructor
    . intro name layer' hlayer
      rw [clientAlloc_layers, map_eq_some_iff] at hlayer
      rcases hlayer with ⟨layer, hlayer, hlayer'⟩
      rcases h.ok.lists name layer hlayer with ⟨l, hl⟩
      have hheads := h.heads name layer hlayer
      rw [← hlayer']
      refine ⟨l, ?_, ?_, ?_⟩
      . simp only
        rw [(hplace _ hheads.1).1]
        apply hl.valid.congr
        . intro a ha
          rcases some_of_mem hl ha with ⟨i, hi⟩
          rw [hi, hl.mem] at ha
          rw [hi]
          simp only [Server.nextAt, bind_some]
          rw [clientAlloc_clients s newHead ha.1.2.1]
          exact (hplace _ (h.links i ha.1.2.1).1).1
        intro a ha
        rcases some_of_mem hl ha with ⟨i, hi⟩
        rw [hi, hl.mem] at ha
        rw [hi]
        simp only [Server.prevAt, bind_some]
        rw [clientAlloc_clients s newHead ha.1.2.1]
        exact (hplace _ (h.links i ha.1.2.1).2).1
      . intro i
        rw [hl.mem, hmember]
      simp only
      rcases hl.active with hzero | ⟨i, hi, hactive⟩
      . rw [hzero]
        exact .inl (by simp [Server.offPointer])
      refine .inr ⟨i, hi, ?_⟩
      have hne : layer.cliActive ≠ 0 := by
        have hpos' := Server.address_pos h.base i
        omega
      rw [Server.offPointer, if_pos hne, hactive]
      unfold Server.address
      rw [hbase]
      omega
    . intro i name hi
      rw [clientAlloc_layers, Ne, map_eq_none_iff]
      exact h.ok.layers i name ((hmember name i).mp hi)
  . exact hpos
  . rw [hsize, clientAlloc_clients s newHead h.server.1]
    exact ⟨Nat.lt_of_lt_of_le h.server.1 (Nat.le_add_right _ _), h.server.2⟩
  . intro i hi
    rw [hsize] at hi
    by_cases hlt : i < s.clientSize
    . rw [clientAlloc_clients s newHead hlt]
      exact ⟨(hplace _ (h.links i hlt).1).2, (hplace _ (h.links i hlt).2).2⟩
    . rw [hfree i hlt hi]
      exact ⟨.inl rfl, .inl rfl⟩
  intro name layer' hlayer
  rw [clientAlloc_layers, map_eq_some_iff] at hlayer
  rcases hlayer with ⟨layer, hlayer, hlayer'⟩
  have hheads := h.heads name layer hlayer
  rw [← hlayer']
  exact ⟨(hplace _ hheads.1).2, (hplace _ hheads.2).2⟩

omit [DecidableEq κ] in
theorem Inv.clientAdd (h : Inv s) (fd : Int) (hpos : 0 < newHead) : Inv (s.clientAdd fd newHead) := by
  unfold Server.clientAdd
  cases hfree : s.findFree with
  | some i => exact h.occupy hfree fd
  | none =>
    have halloc := h.clientAlloc hpos
    simp only
    cases hfree' : (s.clientAlloc newHead).findFree with
    | some i => exact halloc.occupy hfree' fd
    | none => exact halloc

structure Unlinked (s s' : Server κ) (cli : Nat) : Prop where
  same : Server.SameClients s s'
  nextAt : s'.nextAt = if s.prevAt (some cli) = none then s.nextAt
    else update s.nextAt (s.prevAt (some cli)) (s.nextAt (some cli))
  prevAt : s'.prevAt = if s.nextAt (some cli) = none then s.prevAt
    else update s.prevAt (s.nextAt (some cli)) (s.prevAt (some cli))
  next : (s'.clients cli).next = (s.clients cli).next
  links : ∀ i, ((s'.clients i).next = (s.clients i).next ∨ (s'.clients i).next = (s.clients cli).next)
    ∧ ((s'.clients i).prev = (s.clients i).prev ∨ (s'.clients i).prev = (s.clients cli).prev)

omit [DecidableEq κ] in
theorem unlinked_stores (hnext : s.nextAt (some cli) ≠ some cli) (hprev : s.prevAt (some cli) ≠ some cli)
    {s1 s2 : Server κ} (h1 : s1 = s.setPrev (s.clients cli).next (s.clients cli).prev)
    (h2 : s2 = s1.setNext (s1.clients cli).prev (s1.clients cli).next) : Unlinked s s2 cli := by
  have hnext' : s.place (s.clients cli).next ≠ some cli := hnext
  have hprev' : s.place (s.clients cli).prev ≠ some cli := hprev
  have hsame1 : Server.SameClients s s1 := by
    rw [h1]
    exact Server.sameClients_setPrev
  have hsame2 : Server.SameClients s1 s2 := by
    rw [h2]
    exact Server.sameClients_setNext
  have hplace : ∀ p, s1.place p = s.place p := by
    intro p
    unfold Server.place
    rw [hsame1.base]
  have hnext1 : ∀ i, (s1.clients i).next = (s.clients i).next := by
    intro i
    rw [h1]
    exact Server.setPrev_next i
  have hprev1 : ∀ i, (s1.clients i).prev
      = if s.place (s.clients cli).next = some i then (s.clients cli).prev else (s.clients i).prev := by
    intro i
    rw [h1]
    exact Server.setPrev_prev i
  have hcliprev : (s1.clients cli).prev = (s.clients cli).prev := by
    rw [hprev1, if_neg hnext']
  have hnext2 : ∀ i, (s2.clients i).next
      = if s.place (s.clients cli).prev = some i then (s.clients cli).next else (s.clients i).next := by
    intro i
    rw [h2, Server.setNext_next, hcliprev, hnext1, hnext1, hplace]
  have hprev2 : ∀ i, (s2.clients i).prev = (s1.clients i).prev := by
    intro i
    rw [h2]
    exact Server.setNext_prev i
  have hplace2 : ∀ p, s2.place p = s.place p := by
    intro p
    unfold Server.place
    rw [hsame2.base, hsame1.base]
  constructor
  . constructor
    . rw [hsame2.base, hsame1.base]
    . rw [hsame2.clientSize, hsame1.clientSize]
    . intro i
      rw [hsame2.fd, hsame1.fd]
    . intro i
      rw [hsame2.layer, hsame1.layer]
    . rw [hsame2.layers, hsame1.layers]
  . have hnextAt : s1.nextAt = s.nextAt := by
      funext a
      cases a with
      | none => rfl
      | some i => simp only [Server.nextAt, bind_some, hplace, hnext1]
    rw [h2, Server.nextAt_setNext, hnextAt, hcliprev, hnext1, hplace, hplace]
    rfl
  . have hprevAt : s2.prevAt = s1.prevAt := by
      funext a
      cases a with
      | none => rfl
      | some i => simp only [Server.prevAt, bind_some, hplace, hplace2, hprev2]
    rw [hprevAt, h1, Server.prevAt_setPrev]
    rfl
  . rw [hnext2, if_neg hprev']
  intro i
  constructor
  . rw [hnext2]
    split
    . exact .inr rfl
    . exact .inl rfl
  rw [hprev2, hprev1]
  split
  . exact .inr rfl
  . exact .inl rfl

structure Deleted (s s' : Server κ) (cli : Nat) (name : κ) (layer layer' : Layer) : Prop where
  base : s'.base = s.base
  clientSize : s'.clientSize = s.clientSize
  clients : ∃ s2, Unlinked s s2 cli ∧ ∀ i, s'.clients i = if i = cli then Client.free else s2.clients i
  layers : s'.layers = update s.layers name (some layer')
  head : layer'.cliHead = if layer.cliHead = s.address cli then (s.clients cli).next else layer.cliHead
  active : layer'.cliActive
    = if layer.cliActive = s.address cli then
        if (s.clients cli).next = 0 then layer'.cliHead else (s.clients cli).next
      else layer.cliActive

theorem unlink_deleted (hnext : s.nextAt (some cli) ≠ some cli) (hprev : s.prevAt (some cli) ≠ some cli)
    : ∃ layer', Deleted s ((s.unlink cli name layer).setClient cli Client.free) cli name layer layer' := by
  unfold Server.unlink
  simp only
  generalize h1 : s.setPrev (s.clients cli).next (s.clients cli).prev = s1
  generalize h2 : s1.setNext (s1.clients cli).prev (s1.clients cli).next = s2
  have hun := unlinked_stores hnext hprev h1.symm h2.symm
  have haddress : s2.address cli = s.address cli := by
    unfold Server.address
    rw [hun.same.base]
  rw [haddress, hun.next]
  generalize hhead : (if layer.cliHead = s.address cli then (s.clients cli).next else layer.cliHead) = head
  generalize hactive : (if layer.cliActive = s.address cli then
    if (s.clients cli).next = 0 then head else (s.clients cli).next else layer.cliActive) = active
  refine ⟨⟨head, active⟩, hun.same.base, hun.same.clientSize, ⟨s2, hun, ?_⟩, ?_, hhead.symm, hactive.symm⟩
  . intro i
    by_cases hi : i = cli
    . simp [Server.setClient, hi]
    . simp [Server.setClient, Server.setLayer, hi]
  . unfold Server.setClient Server.setLayer
    simp only
    rw [hun.same.layers]

theorem Inv.deleted (h : Inv s) (hdel : Deleted s s' cli name layer layer')
    (hlayers : s.layers name = some layer) (hmember : s.Member name cli) : Inv s' := by
  rcases h.ok.lists name layer hlayers with ⟨l, hl⟩
  rcases append_of_mem ((hl.mem cli).mpr hmember) with ⟨pre, post, hsplit⟩
  have hvalid := hl.valid
  rw [hsplit] at hvalid
  have hnodup := hvalid.nodup
  have hnotin : some cli ∉ pre ++ post := by
    rw [nodup_append, nodup_cons] at hnodup
    rw [mem_append]
    rintro (hmem | hmem)
    . exact hnodup.2.2 _ hmem (some cli) (by simp) rfl
    . exact hnodup.2.1.1 hmem
  have hrest : ∀ i, some i ∈ pre ++ post ↔ i ≠ cli ∧ some i ∈ l := by
    intro i
    rw [hsplit]
    constructor
    . intro hi
      refine ⟨?_, ?_⟩
      . intro heq
        rw [heq] at hi
        exact hnotin hi
      rw [mem_append] at hi ⊢
      rcases hi with hi | hi
      . exact .inl hi
      . exact .inr (mem_cons_of_mem _ hi)
    rintro ⟨hne, hi⟩
    rw [mem_append, mem_cons] at hi
    rw [mem_append]
    rcases hi with hi | hi | hi
    . exact .inl hi
    . exact absurd (Option.some.inj hi) hne
    . exact .inr hi
  rcases hdel.clients with ⟨s2, hun, hclients⟩
  have hplace : ∀ p, s'.place p = s.place p := by
    intro p
    unfold Server.place
    rw [hdel.base]
  have hplace2 : ∀ p, s2.place p = s.place p := by
    intro p
    unfold Server.place
    rw [hun.same.base]
  have haddress : ∀ i, s'.address i = s.address i := by
    intro i
    unfold Server.address
    rw [hdel.base]
  have hpointer : ∀ p, s'.Pointer p ↔ s.Pointer p := by
    intro p
    unfold Server.Pointer
    simp only [hdel.clientSize, haddress]
  have hcli := h.links cli hmember.1.2.1
  have hheads := h.heads name layer hlayers
  have hhead : layer.cliHead = s.address cli ↔ s.place layer.cliHead = some cli := by
    constructor
    . intro heq
      rw [heq]
      exact Server.place_address h.base cli
    intro heq
    rcases pointer_place h.base hheads.1 with ⟨hnone, _⟩ | ⟨j, _, hj, hp⟩
    . rw [hnone] at heq
      simp at heq
    . rw [hj, Option.some.injEq] at heq
      rw [hp, heq]
  have hheadPointer : s.Pointer layer'.cliHead := by
    rw [hdel.head]
    split
    . exact hcli.1
    . exact hheads.1
  have hmemberIff : ∀ name' i, s'.Member name' i ↔ i ≠ cli ∧ s.Member name' i := by
    intro name' i
    unfold Server.Member Server.Connected
    rw [hdel.clientSize, hclients]
    by_cases hi : i = cli
    . simp [hi, Client.free]
    . rw [if_neg hi, hun.same.fd, hun.same.layer]
      simp [hi]
  have hnextAt : ∀ a, a ≠ some cli → s'.nextAt a = s2.nextAt a := by
    intro a ha
    cases a with
    | none => rfl
    | some i =>
      simp only [Server.nextAt, bind_some, hplace, hplace2, hclients]
      rw [if_neg (by simpa using ha)]
  have hprevAt : ∀ a, a ≠ some cli → s'.prevAt a = s2.prevAt a := by
    intro a ha
    cases a with
    | none => rfl
    | some i =>
      simp only [Server.prevAt, bind_some, hplace, hplace2, hclients]
      rw [if_neg (by simpa using ha)]
  have hlist : s'.ListOf name layer' (pre ++ post) := by
    constructor
    . have hremove := hvalid.remove hun.nextAt hun.prevAt
      have hfirst : s'.place layer'.cliHead
          = if s.place layer.cliHead = some cli then s.nextAt (some cli) else s.place layer.cliHead := by
        rw [hplace, hdel.head]
        simp only [hhead]
        split <;> rfl
      rw [hfirst]
      apply hremove.congr
      . intro a ha
        apply hnextAt
        intro heq
        rw [heq] at ha
        exact hnotin ha
      intro a ha
      apply hprevAt
      intro heq
      rw [heq] at ha
      exact hnotin ha
    . intro i
      rw [hrest, hl.mem, hmemberIff]
    rw [hdel.active]
    simp only [haddress]
    have hnextActive : (s.clients cli).next ≠ 0
        → ∃ i, some i ∈ pre ++ post ∧ (s.clients cli).next = s.address i := by
      intro hne
      rcases pointer_place h.base hcli.1 with ⟨_, hzero⟩ | ⟨j, _, hj, hp⟩
      . exact absurd hzero hne
      have hlink := hvalid.next_eq
      have hnext : s.nextAt (some cli) = some j := hj
      rw [hnext, link_eq_some.mpr ⟨rfl, by simp⟩] at hlink
      refine ⟨j, ?_, hp⟩
      rw [mem_append]
      exact .inr (mem_of_head? hlink.symm)
    have hheadActive : layer'.cliHead = 0 ∨ ∃ i, some i ∈ pre ++ post ∧ layer'.cliHead = s.address i := by
      rw [hdel.head]
      split
      . by_cases hzero : (s.clients cli).next = 0
        . exact .inl hzero
        . exact .inr (hnextActive hzero)
      rename_i hne
      rcases pointer_place h.base hheads.1 with ⟨_, hzero⟩ | ⟨j, _, hj, hp⟩
      . exact .inl hzero
      apply Or.inr
      refine ⟨j, (hrest j).mpr ⟨?_, ?_⟩, hp⟩
      . intro heq
        rw [heq] at hp
        exact hne hp
      rcases hl.valid.first_mem with hnil | hmem
      . rw [hj] at hnil
        simp at hnil
      . rw [hj] at hmem
        exact hmem
    split
    . split
      . exact hheadActive
      . next hne => exact .inr (hnextActive hne)
    rename_i hne
    rcases hl.active with hzero | ⟨i, hi, hactive⟩
    . exact .inl hzero
    refine .inr ⟨i, (hrest i).mpr ⟨?_, hi⟩, hactive⟩
    intro heq
    rw [heq] at hactive
    exact hne hactive
  constructor
  . constructor
    . intro name' layer'' hlayer
      rw [hdel.layers] at hlayer
      by_cases hname : name' = name
      . rw [hname, update_self, Option.some.injEq] at hlayer
        rw [hname, ← hlayer]
        exact ⟨_, hlist⟩
      rw [update_of_ne hname] at hlayer
      rcases h.ok.lists name' layer'' hlayer with ⟨l', hl'⟩
      have hother : ∀ a ∈ l', a ∉ l := by
        intro a ha hal
        rcases some_of_mem hl' ha with ⟨i, hi⟩
        rw [hi] at ha hal
        exact listOf_disjoint hl hl' hname hal ha
      have hcliother : ∀ a ∈ l', a ≠ some cli := by
        intro a ha heq
        rw [heq] at ha
        exact hother _ ha ((hl.mem cli).mpr hmember)
      refine ⟨l', listOf_congr hl' hdel.base ?_ ?_ ?_⟩
      . intro a ha
        rw [hnextAt a (hcliother a ha), hun.nextAt]
        split
        . rfl
        rename_i hne
        rw [update_of_ne]
        intro heq
        rcases hl.valid.prev_mem ((hl.mem cli).mpr hmember) with hnil | hmem
        . exact hne hnil
        . rw [← heq] at hmem
          exact hother a ha hmem
      . intro a ha
        rw [hprevAt a (hcliother a ha), hun.prevAt]
        split
        . rfl
        rename_i hne
        rw [update_of_ne]
        intro heq
        rcases hl.valid.next_mem ((hl.mem cli).mpr hmember) with hnil | hmem
        . exact hne hnil
        . rw [← heq] at hmem
          exact hother a ha hmem
      intro i
      rw [hmemberIff]
      constructor
      . intro hi
        exact hi.2
      intro hi
      refine ⟨?_, hi⟩
      intro heq
      rw [heq] at hi
      exact hcliother _ ((hl'.mem cli).mpr hi) rfl
    intro i name' hi
    rw [hmemberIff] at hi
    have hold := h.ok.layers i name' hi.2
    rw [hdel.layers]
    by_cases hname : name' = name
    . rw [hname]
      simp
    . rw [update_of_ne hname]
      exact hold
  . rw [hdel.base]
    exact h.base
  . rw [hdel.clientSize, hclients, if_neg (Ne.symm hmember.1.1), hun.same.fd]
    exact h.server
  . intro i hi
    rw [hdel.clientSize] at hi
    rw [hpointer, hpointer, hclients]
    split
    . exact ⟨Or.inl rfl, Or.inl rfl⟩
    have hlinks := hun.links i
    constructor
    . rcases hlinks.1 with heq | heq
      . rw [heq]
        exact (h.links i hi).1
      . rw [heq]
        exact hcli.1
    rcases hlinks.2 with heq | heq
    . rw [heq]
      exact (h.links i hi).2
    . rw [heq]
      exact hcli.2
  intro name' layer'' hlayer
  rw [hdel.layers] at hlayer
  rw [hpointer, hpointer]
  by_cases hname : name' = name
  . rw [hname, update_self, Option.some.injEq] at hlayer
    rw [← hlayer]
    refine ⟨hheadPointer, ?_⟩
    rw [hdel.active]
    split
    . split
      . exact hheadPointer
      . exact hcli.1
    . exact hheads.2
  . rw [update_of_ne hname] at hlayer
    exact h.heads name' layer'' hlayer

theorem Inv.clientDel (h : Inv s) (hcon : s.Connected cli) : Inv (s.clientDel cli) := by
  unfold Server.clientDel
  simp only
  cases hlayer : (s.clients cli).layer with
  | none =>
    apply h.setClient
    . intro name hmem
      have hsome := hmem.2
      rw [hlayer] at hsome
      simp at hsome
    . exact .inl rfl
    . exact hcon.1
    . exact ⟨.inl rfl, .inl rfl⟩
  | some name =>
    have hmember : s.Member name cli := ⟨hcon, hlayer⟩
    have hexists := h.ok.layers cli name hmember
    simp only
    cases hlayers : s.layers name with
    | none => exact absurd hlayers hexists
    | some layer =>
      rcases h.ok.lists name layer hlayers with ⟨l, hl⟩
      have hcli := (hl.mem cli).mpr hmember
      have hnext : s.nextAt (some cli) ≠ some cli := by
        intro heq
        rcases append_of_mem hcli with ⟨pre, post, hsplit⟩
        have hvalid := hl.valid
        rw [hsplit] at hvalid
        have hlink := hvalid.next_eq
        rw [heq] at hlink
        have hhead : post.head? = some (some cli) := by
          rw [← hlink, link_eq_some]
          simp
        have hnodup := hvalid.nodup
        rw [nodup_append, nodup_cons] at hnodup
        exact hnodup.2.1.1 (mem_of_head? hhead)
      have hprev : s.prevAt (some cli) ≠ some cli := by
        intro heq
        exact hnext ((hl.valid.next_eq_iff hcli hcli).mpr heq)
      rcases @unlink_deleted _ _ s cli name layer hnext hprev with ⟨layer', hdel⟩
      exact h.deleted hdel hlayers hmember

theorem Inv.exec (h : Inv s) {a : Action κ} (hen : s.Enabled a) (hok : s.JoinsOnce a) : Inv (s.exec a) := by
  cases a with
  | clientAdd fd newHead => exact h.clientAdd fd hen.2
  | clientJoinLayer cli name => exact h.clientJoinLayer hen hok
  | clientDel cli => exact h.clientDel hen
  | setActiveClient client => exact h.setActiveClient hen

theorem Joined.not_layersOk (hjoined : Joined s s' cli name layer) (h : Inv s)
    (hmember : s.Member name' cli) (hne : name' ≠ name) : ¬s'.LayersOk := by
  intro hok
  have hplace : ∀ p, s'.place p = s.place p := by
    intro p
    unfold Server.place
    rw [hjoined.base]
  have hexists := h.ok.layers cli name' hmember
  cases hlayers : s.layers name' with
  | none => exact hexists hlayers
  | some layer' =>
    rcases h.ok.lists name' layer' hlayers with ⟨l, hl⟩
    have hlayers' : s'.layers name' = some layer' := by
      rw [hjoined.heads, update_of_ne hne]
      exact hlayers
    rcases hok.lists name' layer' hlayers' with ⟨l', hl'⟩
    have hgone : some cli ∉ l' := by
      intro hmem
      have hlayer := ((hl'.mem cli).mp hmem).2
      rw [hjoined.joined, if_pos rfl, Option.some.injEq] at hlayer
      exact hne hlayer.symm
    rcases append_of_mem ((hl.mem cli).mpr hmember) with ⟨pre, post, hsplit⟩
    have hvalid := hl.valid
    rw [hsplit] at hvalid
    rcases eq_nil_or_concat pre with hnil | ⟨init, y, hconcat⟩
    . -- The head of the list still is the client.
      have hforward := hvalid.forward
      rw [hnil, nil_append, Chain.linked_cons, link_eq_some] at hforward
      rcases hl'.valid.first_mem with hnone | hmem
      . rw [hplace, hforward.1.1] at hnone
        simp at hnone
      . rw [hplace, hforward.1.1] at hmem
        exact hgone hmem
    -- The client in front of it still leads to it.
    rw [concat_eq_append] at hconcat
    rw [hconcat, append_assoc, singleton_append] at hvalid
    have hlink := hvalid.next_eq
    rw [head?_cons, link_eq_some] at hlink
    have hyl : y ∈ l := by
      rw [hsplit, hconcat]
      simp
    rcases some_of_mem hl hyl with ⟨k, hk⟩
    rw [hk] at hlink hyl
    have hkcli : k ≠ cli := by
      intro heq
      have hnodup := hvalid.nodup
      rw [hk, heq, nodup_append, nodup_cons] at hnodup
      exact hnodup.2.1.1 (by simp)
    have hkmem : some k ∈ l' := by
      rw [hl'.mem]
      have hold := (hl.mem k).mp hyl
      unfold Server.Member Server.Connected at hold ⊢
      rw [hjoined.clientSize, hjoined.fd, hjoined.joined, if_neg hkcli]
      exact hold
    have hnext : s'.nextAt (some k) = some cli := by
      rw [hjoined.nextAt, if_neg hkcli]
      exact hlink.1
    rcases hl'.valid.next_mem hkmem with hnone | hmem
    . rw [hnext] at hnone
      simp at hnone
    . rw [hnext] at hmem
      exact hgone hmem

theorem Inv.not_layersOk (h : Inv s) (hcon : s.Connected cli)
    (hbad : ¬((s.clients cli).layer = none ∨ (s.clients cli).layer = some name))
    : ¬(s.clientJoinLayer cli name).LayersOk := by
  push Not at hbad
  cases hlayer : (s.clients cli).layer with
  | none => exact absurd hlayer hbad.1
  | some name' =>
    have hne : name' ≠ name := by
      intro heq
      apply hbad.2
      rw [hlayer, heq]
    unfold Server.clientJoinLayer
    cases hlayers : s.layers name with
    | some layer =>
      exact (doClientJoinLayer_joined hbad.2).not_layersOk h ⟨hcon, hlayer⟩ hne
    | none =>
      have hempty : s.ListOf name ⟨0, 0⟩ [] := by
        constructor
        . simp
        . intro i
          simp only [not_mem_nil, false_iff]
          intro hi
          exact h.ok.layers i name hi hlayers
        . exact .inl rfl
      have halloc := h.setLayer name ⟨[], hempty⟩ ⟨.inl rfl, .inl rfl⟩
      have hjoined := @doClientJoinLayer_joined _ _ { s.setLayer name ⟨0, 0⟩ with topmost := name } cli name ⟨0, 0⟩
        hbad.2
      exact hjoined.not_layersOk halloc ⟨hcon, hlayer⟩ hne

theorem Inv.startup {base : Int} (hbase : 0 < base) (topmost : κ) : Inv (Server.startup base topmost) := by
  have hmember : ∀ name i, ¬(Server.startup base topmost).Member name i := by
    rintro name i ⟨⟨hi, _, hfd⟩, _⟩
    simp [Server.startup, hi, Client.free] at hfd
  have hlayers : ∀ name layer, (Server.startup base topmost).layers name = some layer → layer = ⟨0, 0⟩ := by
    intro name layer hlayer
    simp only [Server.startup] at hlayer
    split at hlayer
    . exact (Option.some.inj hlayer).symm
    . simp at hlayer
  constructor
  . constructor
    . intro name layer hlayer
      rw [hlayers name layer hlayer]
      refine ⟨[], ?_, ?_, .inl rfl⟩
      . simp
      . intro i
        simp [hmember]
    . intro i name hi
      exact absurd hi (hmember name i)
  . exact hbase
  . simp [Server.startup, NALLOC]
  . intro i _
    simp only [Server.startup]
    split
    . exact ⟨.inl rfl, .inl rfl⟩
    . exact ⟨.inl rfl, .inl rfl⟩
  . intro name layer hlayer
    rw [hlayers name layer hlayer]
    exact ⟨.inl rfl, .inl rfl⟩

/--
As long as no client joins a second layer, the list of each layer has exactly its clients, wherever the array of the
clients moves, and the first client that does breaks that.
-/
theorem layer_membership {base : Int} (hbase : 0 < base) (topmost : κ)
    (h : Reachable Server.step Server.JoinsOnce (Server.startup base topmost) s)
    : s.LayersOk ∧ ∀ a, s.Enabled a → ((s.exec a).LayersOk ↔ s.JoinsOnce a) := by
  have hinv : Inv s := by
    apply Reachable.invariant (Inv.startup hbase topmost) _ h
    intro s a s' hs hok hstep
    rw [hstep.2]
    exact hs.exec hstep.1 hok
  refine ⟨hinv.ok, ?_⟩
  intro a hen
  constructor
  . intro hok
    cases a with
    | clientJoinLayer cli name =>
      by_contra hbad
      exact hinv.not_layersOk hen hbad hok
    | clientAdd | clientDel | setActiveClient => trivial
  . intro hok
    exact (hinv.exec hen hok).ok

def oneMember : Server Bool :=
  ((Server.startup 4096 false).clientAdd 5 0x2000).clientJoinLayer 1 false

theorem reachable_oneMember (ok : Server Bool → Action Bool → Prop)
    (hadd : ok (Server.startup 4096 false) (.clientAdd 5 0x2000))
    (hjoin : ok ((Server.startup 4096 false).clientAdd 5 0x2000) (.clientJoinLayer 1 false))
    : Reachable Server.step ok (Server.startup 4096 false) oneMember := by
  have hcon : ((Server.startup 4096 false).clientAdd 5 0x2000).Enabled (.clientJoinLayer 1 false) := by
    unfold Server.Enabled Server.Connected
    decide
  have hconnect : (Server.startup 4096 false).Enabled (.clientAdd 5 0x2000) := ⟨by decide, by decide⟩
  exact Reachable.step (Reachable.step Reachable.init hadd ⟨hconnect, rfl⟩) hjoin ⟨hcon, rfl⟩

theorem layer_membership_joined
    : oneMember.LayersOk ∧ ((oneMember.exec (.clientJoinLayer 1 false)).LayersOk
        ↔ oneMember.JoinsOnce (.clientJoinLayer 1 false)) := by
  have hreach := reachable_oneMember Server.JoinsOnce trivial (Or.inl rfl)
  have hmembers := layer_membership (by decide) false hreach
  refine ⟨hmembers.1, hmembers.2 _ ?_⟩
  unfold Server.Enabled Server.Connected
  decide

theorem layer_membership_lost
    : ¬∀ s : Server Bool, Reachable Server.step (fun _ _ => True) (Server.startup 4096 false) s → s.LayersOk := by
  intro h
  have hreach := reachable_oneMember (fun _ _ => True) trivial trivial
  have hen : oneMember.Enabled (.clientJoinLayer 1 true) := by
    unfold Server.Enabled Server.Connected
    decide
  have hinv : Inv oneMember := by
    have hstart := Inv.startup (by decide : (0 : Int) < 4096) false
    have hadd := hstart.clientAdd 5 (by decide : (0 : Int) < 0x2000)
    apply hadd.clientJoinLayer
    . unfold Server.Connected
      decide
    . exact .inl rfl
  have hafter := Reachable.step hreach trivial ⟨hen, rfl⟩
  have hbad : ¬((oneMember.clients 1).layer = none ∨ (oneMember.clients 1).layer = some true) := by
    decide
  exact hinv.not_layersOk hen hbad (h _ hafter)

end Steps

end MiniGui.Members
