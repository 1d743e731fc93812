import MiniGui.Library.Reach

/-!
The resources that the server keeps for its clients (`server/request.c`): the list `global_res` of a client, the
requests that make and destroy cursors and hardware surfaces, and the end of a client. The addresses that `malloc` and
the video engine return are part of the actions, and the model counts how often each resource is released.
-/

namespace MiniGui.GlobalRes

open Function List

open Reach

inductive ReleaseProc where
  | destroyCursor
  | releaseHWS
deriving DecidableEq, Repr

structure Entry where
  key : Nat
  res : Nat
  releaseProc : ReleaseProc
deriving DecidableEq, Repr

structure Client where
  connected : Bool
  joined : Bool
  globalRes : List Entry
deriving DecidableEq, Repr

structure Resource where
  kind : ReleaseProc
  address : Nat
  cli : Nat
  released : Nat
  gone : Bool
deriving DecidableEq, Repr

structure Resources where
  count : Nat
  info : Nat → Resource
  holder : Nat → Option Nat

structure Server where
  clients : Nat → Client
  resources : Resources

namespace Resources

def release (w : Resources) (kind : ReleaseProc) (address : Nat) : Resources :=
  match w.holder address with
  | some i =>
    if (w.info i).kind = kind then
      { w with info := update w.info i { w.info i with released := (w.info i).released + 1 } }
    else
      w
  | none => w

def handOut (w : Resources) (kind : ReleaseProc) (address cli : Nat) : Resources :=
  {
    count := w.count + 1
    info := update w.info w.count ⟨kind, address, cli, 0, false⟩
    holder := update w.holder address (some w.count)
  }

def forget (w : Resources) (cli : Nat) : Resources :=
  { w with info := fun i => if (w.info i).cli = cli then { w.info i with gone := true } else w.info i }

def destroyCursor (w : Resources) (hcsr : Nat) : Resources :=
  w.release .destroyCursor hcsr

def requestHWSurface (w : Resources) (bucket : Nat) : Resources :=
  if bucket = 0 then w else w.release .releaseHWS bucket

def releaseEntry (w : Resources) (entry : Entry) : Resources :=
  match entry.releaseProc with
  | .destroyCursor => w.destroyCursor entry.res
  | .releaseHWS => w.requestHWSurface entry.res

end Resources

namespace Server

def init : Server where
  clients := fun _ => ⟨false, false, []⟩
  resources := ⟨0, fun _ => ⟨.destroyCursor, 0, 0, 0, false⟩, fun _ => none⟩

def setClient (s : Server) (cli : Nat) (client : Client) : Server :=
  { s with clients := update s.clients cli client }

def addGlobalRes (s : Server) (cli key res : Nat) (releaseProc : ReleaseProc) (allocated : Bool) : Server :=
  if allocated then
    s.setClient cli { s.clients cli with globalRes := ⟨key, res, releaseProc⟩ :: (s.clients cli).globalRes }
  else
    s

def delGlobalRes (s : Server) (cli key : Nat) : Server :=
  let s := { s with
    resources := ((s.clients cli).globalRes.filter (fun e : Entry => e.key = key)).foldl Resources.releaseEntry s.resources }
  s.setClient cli { s.clients cli with globalRes := (s.clients cli).globalRes.filter (fun e : Entry => e.key ≠ key) }

def releaseGlobalRes (s : Server) (cli : Nat) : Server :=
  { s with resources := (s.clients cli).globalRes.foldl Resources.releaseEntry s.resources }

def handCursor (s : Server) (cli hcsr : Nat) (allocated : Bool) : Server :=
  if hcsr ≠ 0 then
    let s := s.addGlobalRes cli hcsr hcsr .destroyCursor allocated
    { s with resources := s.resources.handOut .destroyCursor hcsr cli }
  else
    s

def loadCursor (s : Server) (cli hcsr : Nat) (allocated : Bool) : Server :=
  s.handCursor cli hcsr allocated

def createCursor (s : Server) (cli hcsr : Nat) (allocated : Bool) : Server :=
  s.handCursor cli hcsr allocated

def destroyCursor (s : Server) (cli hcsr : Nat) : Server :=
  { s with resources := s.resources.destroyCursor hcsr }.delGlobalRes cli hcsr

def reqHwSurface (s : Server) (cli bucket reply : Nat) (allocated : Bool) : Server :=
  let s := { s with resources := s.resources.requestHWSurface bucket }
  if bucket = 0 then
    let s := s.addGlobalRes cli reply reply .releaseHWS allocated
    if reply ≠ 0 then { s with resources := s.resources.handOut .releaseHWS reply cli } else s
  else
    s.delGlobalRes cli bucket

def clientDel (s : Server) (cli : Nat) : Server :=
  let s := if (s.clients cli).joined then s.releaseGlobalRes cli else s
  { s.setClient cli ⟨false, false, []⟩ with resources := s.resources.forget cli }

end Server

inductive Action where
  | clientAdd (cli : Nat)
  | joinLayer (cli : Nat)
  | loadCursor (cli hcsr : Nat) (allocated : Bool)
  | createCursor (cli hcsr : Nat) (allocated : Bool)
  | destroyCursor (cli hcsr : Nat)
  | reqHwSurface (cli bucket reply : Nat) (allocated : Bool)
  | clientDel (cli : Nat)
deriving DecidableEq, Repr

namespace Server

def exec (s : Server) (a : Action) : Server :=
  match a with
  | .clientAdd cli => s.setClient cli ⟨true, false, []⟩
  | .joinLayer cli => s.setClient cli { s.clients cli with joined := true }
  | .loadCursor cli hcsr allocated => s.loadCursor cli hcsr allocated
  | .createCursor cli hcsr allocated => s.createCursor cli hcsr allocated
  | .destroyCursor cli hcsr => s.destroyCursor cli hcsr
  | .reqHwSurface cli bucket reply allocated => s.reqHwSurface cli bucket reply allocated
  | .clientDel cli => s.clientDel cli

def Fresh (s : Server) (address : Nat) : Prop :=
  ∀ i < s.resources.count, (s.resources.info i).released = 0 → (s.resources.info i).address ≠ address

def Enabled (s : Server) : Action → Prop
  | .clientAdd cli => (s.clients cli).connected = false
  | .joinLayer cli => (s.clients cli).connected = true
  | .loadCursor cli hcsr _ => (s.clients cli).connected = true ∧ s.Fresh hcsr
  | .createCursor cli hcsr _ => (s.clients cli).connected = true ∧ s.Fresh hcsr
  | .destroyCursor cli _ => (s.clients cli).connected = true
  | .reqHwSurface cli bucket reply _ => (s.clients cli).connected = true ∧ (bucket = 0 → s.Fresh reply)
  | .clientDel cli => (s.clients cli).connected = true

def step (s : Server) (a : Action) (s' : Server) : Prop :=
  s.Enabled a ∧ s' = s.exec a

structure ReleasedOnce (s : Server) : Prop where
  atMostOnce : ∀ i < s.resources.count, (s.resources.info i).released ≤ 1
  gone : ∀ i < s.resources.count, (s.resources.info i).gone = true → (s.resources.info i).released = 1
  noEntry : ∀ i < s.resources.count, (s.resources.info i).released ≠ 0 →
    ∀ cli, ∀ entry ∈ (s.clients cli).globalRes, s.resources.holder entry.key ≠ some i

def KeepsOnce (s : Server) : Action → Prop
  | .clientAdd _ => True
  | .joinLayer _ => True
  | .loadCursor _ hcsr allocated => hcsr ≠ 0 → allocated = true
  | .createCursor _ hcsr allocated => hcsr ≠ 0 → allocated = true
  | .destroyCursor _ hcsr => s.resources.holder hcsr = none
  | .reqHwSurface _ bucket reply allocated =>
    if bucket = 0 then reply ≠ 0 → allocated = true else s.resources.holder bucket = none
  | .clientDel cli => (s.clients cli).joined = true ∨ ∀ entry ∈ (s.clients cli).globalRes, entry.key = 0

end Server

section Release

variable {w : Resources} {kind : ReleaseProc} {address i : Nat} {entry : Entry} {es : List Entry}

@[simp]
theorem release_count : (w.release kind address).count = w.count := by
  unfold Resources.release
  split
  . split <;> rfl
  . rfl

@[simp]
theorem release_holder : (w.release kind address).holder = w.holder := by
  unfold Resources.release
  split
  . split <;> rfl
  . rfl

theorem release_info (i : Nat) : (w.release kind address).info i
        =
      if w.holder address = some i ∧ (w.info i).kind = kind then
        { w.info i with released := (w.info i).released + 1 }
      else
        w.info i := by
  unfold Resources.release
  cases hholder : w.holder address with
  | none => simp
  | some j =>
    by_cases hji : j = i
    . rw [hji]
      by_cases hkind : (w.info i).kind = kind
      . simp [hkind]
      . simp [hkind]
    . by_cases hkind : (w.info j).kind = kind
      . simp [hkind, hji, update_of_ne (Ne.symm hji)]
      . simp [hkind, hji]

theorem release_kind (i : Nat) : ((w.release kind address).info i).kind = (w.info i).kind := by
  rw [release_info]
  split <;> rfl

theorem release_of_none (h : w.holder address = none) : w.release kind address = w := by
  unfold Resources.release
  rw [h]

variable (hnull : w.holder 0 = none)
include hnull

theorem releaseEntry_eq (hres : entry.res = entry.key)
    : w.releaseEntry entry = w.release entry.releaseProc entry.key := by
  unfold Resources.releaseEntry
  cases entry.releaseProc with
  | destroyCursor =>
    rw [hres]
    rfl
  | releaseHWS =>
    simp only [Resources.requestHWSurface, hres]
    split
    . next h =>
      rw [h, release_of_none hnull]
    . rfl

theorem foldl_releaseEntry
    (hholder : ∀ p q i, w.holder p = some i → w.holder q = some i → p = q) (hres : ∀ e ∈ es, e.res = e.key)
    (hdistinct : es.Pairwise (fun e e' => e.key = e'.key → e.key = 0))
    : (es.foldl Resources.releaseEntry w).count = w.count
        ∧ (es.foldl Resources.releaseEntry w).holder = w.holder
        ∧ ∀ i, (es.foldl Resources.releaseEntry w).info i
            = if ∃ e ∈ es, w.holder e.key = some i ∧ (w.info i).kind = e.releaseProc then
                { w.info i with released := (w.info i).released + 1 }
              else
                w.info i := by
  induction es generalizing w with
  | nil => simp
  | cons e es ih =>
    rw [pairwise_cons] at hdistinct
    rw [foldl_cons, releaseEntry_eq hnull (hres e (by simp))]
    have hnext := @ih (w.release e.releaseProc e.key) (by simpa using hnull) (by simpa using hholder)
      (fun e' he' => hres e' (by simp [he'])) hdistinct.2
    rw [release_count, release_holder] at hnext
    refine ⟨hnext.1, hnext.2.1, ?_⟩
    intro i
    rw [hnext.2.2 i]
    simp only [release_kind, mem_cons, exists_eq_or_imp]
    by_cases hlater : ∃ e' ∈ es, w.holder e'.key = some i ∧ (w.info i).kind = e'.releaseProc
    . have hnot : ¬(w.holder e.key = some i ∧ (w.info i).kind = e.releaseProc) := by
        rintro ⟨hhold, _⟩
        rcases hlater with ⟨e', he', hhold', _⟩
        have hzero := hdistinct.1 e' he' (hholder _ _ i hhold hhold')
        rw [hzero, hnull] at hhold
        simp at hhold
      rw [if_pos hlater, if_pos (Or.inr hlater), release_info, if_neg hnot]
    . rw [if_neg hlater, release_info]
      simp only [hlater, or_false]

theorem foldl_releaseEntry_none (hres : ∀ e ∈ es, e.res = e.key)
    (h : ∀ e ∈ es, w.holder e.key = none) : es.foldl Resources.releaseEntry w = w := by
  induction es with
  | nil => rfl
  | cons e es ih =>
    rw [foldl_cons, releaseEntry_eq hnull (hres e (by simp)), release_of_none (h e (by simp))]
    apply ih
    . intro e' he'
      apply hres
      simp [he']
    . intro e' he'
      apply h
      simp [he']

end Release

section Runs

structure Inv (s : Server) : Prop where
  released : ∀ i < s.resources.count,
    (s.resources.info i).released = if (s.resources.info i).gone = true then 1 else 0
  holds : ∀ i < s.resources.count, (s.resources.info i).gone = false →
    s.resources.holder (s.resources.info i).address = some i
  held : ∀ p i, s.resources.holder p = some i → i < s.resources.count ∧ (s.resources.info i).address = p
  null : s.resources.holder 0 = none
  noted : ∀ i < s.resources.count, (s.resources.info i).gone = false →
    ∃ e ∈ (s.clients (s.resources.info i).cli).globalRes, e.key = (s.resources.info i).address
  entry : ∀ cli, ∀ e ∈ (s.clients cli).globalRes, e.key ≠ 0 →
    ∃ i < s.resources.count, (s.resources.info i).gone = false ∧ (s.resources.info i).cli = cli
      ∧ (s.resources.info i).address = e.key ∧ (s.resources.info i).kind = e.releaseProc
  res : ∀ cli, ∀ e ∈ (s.clients cli).globalRes, e.res = e.key
  distinct : ∀ cli, (s.clients cli).globalRes.Pairwise (fun e e' => e.key = e'.key → e.key = 0)
  free : ∀ cli, (s.clients cli).connected = false → (s.clients cli).globalRes = []

variable {s : Server} {cli address key i : Nat}

theorem Inv.init : Inv Server.init := by
  constructor <;> simp [Server.init]

section

variable (h : Inv s)
include h

theorem Inv.releasedOnce : s.ReleasedOnce where
  atMostOnce := by
    intro i hi
    rw [h.released i hi]
    split <;> omega
  gone := by
    intro i hi hgone
    rw [h.released i hi, if_pos hgone]
  noEntry := by
    intro i hi hrel cli e he hhold
    have hkey : e.key ≠ 0 := by
      intro hzero
      rw [hzero, h.null] at hhold
      simp at hhold
    rcases h.entry cli e he hkey with ⟨j, hj, hgone, _, haddr, _⟩
    have hhold' := h.holds j hj hgone
    rw [haddr, hhold, Option.some.injEq] at hhold'
    rw [h.released i hi, hhold', hgone] at hrel
    simp at hrel

theorem Inv.holder_inj (p q i : Nat) (hp : s.resources.holder p = some i)
    (hq : s.resources.holder q = some i) : p = q := by
  rw [← (h.held p i hp).2, (h.held q i hq).2]

theorem Inv.delGlobalRes (hnone : s.resources.holder key = none) : Inv (s.delGlobalRes cli key) := by
  have hsame : ((s.clients cli).globalRes.filter (fun e : Entry => e.key = key)).foldl Resources.releaseEntry s.resources
      = s.resources := by
    apply foldl_releaseEntry_none h.null
    . intro e he
      exact h.res cli e (mem_of_mem_filter he)
    intro e he
    rw [mem_filter, decide_eq_true_eq] at he
    rw [he.2]
    exact hnone
  unfold Server.delGlobalRes
  simp only [hsame]
  have hlist : ∀ cli' e, e ∈ ((s.setClient cli { s.clients cli with
      globalRes := (s.clients cli).globalRes.filter (fun e : Entry => e.key ≠ key) }).clients cli').globalRes
        → e ∈ (s.clients cli').globalRes := by
    intro cli' e he
    by_cases hcli : cli' = cli
    . rw [hcli] at he ⊢
      simp only [Server.setClient, update_self] at he
      exact mem_of_mem_filter he
    . simpa [Server.setClient, update_of_ne hcli] using he
  constructor
  . exact h.released
  . exact h.holds
  . exact h.held
  . exact h.null
  . intro i hi hgone
    rcases h.noted i hi hgone with ⟨e, he, hkey⟩
    refine ⟨e, ?_, hkey⟩
    have hhold := h.holds i hi hgone
    by_cases hcli : (s.resources.info i).cli = cli
    . rw [hcli] at he
      simp only [Server.setClient, hcli, update_self, mem_filter]
      refine ⟨he, ?_⟩
      simp only [decide_eq_true_eq]
      intro hek
      rw [← hkey, hek, hnone] at hhold
      simp at hhold
    . simpa [Server.setClient, update_of_ne hcli] using he
  . intro cli' e he
    exact h.entry cli' e (hlist cli' e he)
  . intro cli' e he
    exact h.res cli' e (hlist cli' e he)
  . intro cli'
    by_cases hcli : cli' = cli
    . rw [hcli]
      simp only [Server.setClient, update_self]
      exact (h.distinct cli).filter _
    . simp only [Server.setClient, update_of_ne hcli]
      exact h.distinct cli'
  intro cli' hfree
  by_cases hcli : cli' = cli
  . rw [hcli] at hfree ⊢
    simp only [Server.setClient, update_self] at hfree ⊢
    rw [h.free cli hfree]
    rfl
  . simp only [Server.setClient, update_of_ne hcli] at hfree ⊢
    exact h.free cli' hfree

theorem Inv.handOut (hcon : (s.clients cli).connected = true) (hne : address ≠ 0) (hfresh : s.Fresh address)
    (kind : ReleaseProc) : Inv { s.addGlobalRes cli address address kind true with
        resources := (s.addGlobalRes cli address address kind true).resources.handOut kind address cli } := by
  let r := s.resources.handOut kind address cli
  let s1 := s.addGlobalRes cli address address kind true
  have hother : ∀ i < s.resources.count, (s.resources.info i).gone = false
      → (s.resources.info i).address ≠ address := by
    intro i hi hgone
    apply hfresh i hi
    rw [h.released i hi, hgone]
    rfl
  have hlist : ∀ cli', (s1.clients cli').globalRes
      = if cli' = cli then ⟨address, address, kind⟩ :: (s.clients cli').globalRes else (s.clients cli').globalRes := by
    intro cli'
    by_cases hcli : cli' = cli
    . simp [s1, Server.addGlobalRes, Server.setClient, hcli]
    . simp [s1, Server.addGlobalRes, Server.setClient, hcli]
  have hold : ∀ i < s.resources.count,
      r.info i = s.resources.info i := by
    intro i hi
    exact update_of_ne (by omega) _ _
  have hnew : r.info s.resources.count = ⟨kind, address, cli, 0, false⟩ := by
    exact update_self _ _ _
  constructor
  . intro i hi
    change i < s.resources.count + 1 at hi
    change (r.info i).released
      = if (r.info i).gone = true then 1 else 0
    by_cases hlast : i = s.resources.count
    . rw [hlast, hnew]
      rfl
    . rw [hold i (by omega)]
      exact h.released i (by omega)
  . intro i hi hgone
    change i < s.resources.count + 1 at hi
    change (r.info i).gone = false at hgone
    change r.holder (r.info i).address = some i
    by_cases hlast : i = s.resources.count
    . rw [hlast, hnew]
      exact update_self _ _ _
    . rw [hold i (by omega)] at hgone ⊢
      rw [← h.holds i (by omega) hgone]
      exact update_of_ne (hother i (by omega) hgone) _ _
  . intro p i hp
    change update s.resources.holder address (some s.resources.count) p = some i at hp
    change i < s.resources.count + 1 ∧ (r.info i).address = p
    by_cases hpa : p = address
    . rw [hpa, update_self, Option.some.injEq] at hp
      rw [← hp, hnew, hpa]
      exact ⟨by omega, rfl⟩
    rw [update_of_ne hpa] at hp
    have hheld := h.held p i hp
    rw [hold i hheld.1]
    exact ⟨by omega, hheld.2⟩
  . change update s.resources.holder address (some s.resources.count) 0 = none
    rw [update_of_ne (Ne.symm hne)]
    exact h.null
  . intro i hi hgone
    change i < s.resources.count + 1 at hi
    change (r.info i).gone = false at hgone
    change ∃ e ∈ (s1.clients
      (r.info i).cli).globalRes,
        e.key = (r.info i).address
    rw [hlist]
    by_cases hlast : i = s.resources.count
    . rw [hlast, hnew]
      exact ⟨⟨address, address, kind⟩, by simp, rfl⟩
    rw [hold i (by omega)] at hgone ⊢
    rcases h.noted i (by omega) hgone with ⟨e, he, hkey⟩
    refine ⟨e, ?_, hkey⟩
    split
    . simp [he]
    . exact he
  . intro cli' e he hkey
    change e ∈ (s1.clients cli').globalRes at he
    change ∃ i < s.resources.count + 1, (r.info i).gone = false
      ∧ (r.info i).cli = cli'
      ∧ (r.info i).address = e.key
      ∧ (r.info i).kind = e.releaseProc
    have hcases : (cli' = cli ∧ e = ⟨address, address, kind⟩) ∨ e ∈ (s.clients cli').globalRes := by
      rw [hlist] at he
      split at he
      . next hcli =>
        rcases mem_cons.mp he with heq | hmem
        . exact .inl ⟨hcli, heq⟩
        . exact .inr hmem
      . exact .inr he
    rcases hcases with ⟨hcli, heq⟩ | hmem
    . refine ⟨s.resources.count, by omega, ?_⟩
      rw [hnew, heq, hcli]
      exact ⟨rfl, rfl, rfl, rfl⟩
    rcases h.entry cli' e hmem hkey with ⟨i, hi, hentry⟩
    refine ⟨i, by omega, ?_⟩
    rw [hold i hi]
    exact hentry
  . intro cli' e he
    change e ∈ (s1.clients cli').globalRes at he
    rw [hlist] at he
    split at he
    . rcases mem_cons.mp he with heq | hmem
      . rw [heq]
      . exact h.res cli' e hmem
    . exact h.res cli' e he
  . intro cli'
    change List.Pairwise _ (s1.clients cli').globalRes
    rw [hlist]
    split
    . rw [pairwise_cons]
      refine ⟨?_, h.distinct cli'⟩
      intro e he hsame
      simp only at hsame
      exfalso
      rcases h.entry cli' e he (by omega) with ⟨i, hi, hgone, _, haddr, _⟩
      apply hother i hi hgone
      rw [haddr, hsame]
    . exact h.distinct cli'
  intro cli' hfree
  change (s1.clients cli').connected = false at hfree
  change (s1.clients cli').globalRes = []
  by_cases hcli : cli' = cli
  . rw [hcli] at hfree
    simp [s1, Server.addGlobalRes, Server.setClient, hcon] at hfree
  . rw [hlist, if_neg hcli]
    simp only [s1, Server.addGlobalRes, Server.setClient, if_true, update_of_ne hcli] at hfree
    exact h.free cli' hfree

theorem Inv.setClient (client : Client)
    (hkeep : ∀ e ∈ (s.clients cli).globalRes, e ∈ client.globalRes)
    (hadd : ∀ e ∈ client.globalRes, e ∈ (s.clients cli).globalRes ∨ (e.key = 0 ∧ e.res = 0))
    (hdistinct : client.globalRes.Pairwise (fun e e' => e.key = e'.key → e.key = 0))
    (hfree : client.connected = false → client.globalRes = []) : Inv (s.setClient cli client) := by
  have hmem : ∀ cli' e, e ∈ ((s.setClient cli client).clients cli').globalRes
      → e ∈ (s.clients cli').globalRes ∨ (e.key = 0 ∧ e.res = 0) := by
    intro cli' e he
    by_cases hcli : cli' = cli
    . rw [hcli] at he ⊢
      simp only [Server.setClient, update_self] at he
      exact hadd e he
    . simp only [Server.setClient, update_of_ne hcli] at he
      exact .inl he
  constructor
  . exact h.released
  . exact h.holds
  . exact h.held
  . exact h.null
  . intro i hi hgone
    rcases h.noted i hi hgone with ⟨e, he, hkey⟩
    refine ⟨e, ?_, hkey⟩
    by_cases hcli : (s.resources.info i).cli = cli
    . rw [hcli] at he
      simp only [Server.setClient, hcli, update_self]
      exact hkeep e he
    . simpa [Server.setClient, update_of_ne hcli] using he
  . intro cli' e he hkey
    rcases hmem cli' e he with hold | ⟨hzero, _⟩
    . exact h.entry cli' e hold hkey
    . exact absurd hzero hkey
  . intro cli' e he
    rcases hmem cli' e he with hold | ⟨hzero, hres⟩
    . exact h.res cli' e hold
    . rw [hzero, hres]
  . intro cli'
    by_cases hcli : cli' = cli
    . rw [hcli]
      simpa only [Server.setClient, update_self] using hdistinct
    . simpa only [Server.setClient, update_of_ne hcli] using h.distinct cli'
  intro cli'
  by_cases hcli : cli' = cli
  . rw [hcli]
    simpa only [Server.setClient, update_self] using hfree
  . simpa only [Server.setClient, update_of_ne hcli] using h.free cli'

theorem Inv.key_ne_zero {e : Entry} (hhold : s.resources.holder e.key = some i) : e.key ≠ 0 := by
  intro hzero
  rw [hzero, h.null] at hhold
  simp at hhold

theorem Inv.addNull (hcon : (s.clients cli).connected = true) (allocated : Bool)
    : Inv (s.addGlobalRes cli 0 0 .releaseHWS allocated) := by
  unfold Server.addGlobalRes
  split
  . apply h.setClient
    . intro e he
      simp [he]
    . intro e he
      rcases mem_cons.mp he with heq | hmem
      . rw [heq]
        exact .inr ⟨rfl, rfl⟩
      . exact .inl hmem
    . rw [pairwise_cons]
      refine ⟨?_, h.distinct cli⟩
      intro e he hsame
      rfl
    . simp [hcon]
  . exact h

theorem Inv.handCursor {hcsr : Nat} {allocated : Bool}
    (hen : (s.clients cli).connected = true ∧ s.Fresh hcsr) (hok : hcsr ≠ 0 → allocated = true)
    : Inv (s.handCursor cli hcsr allocated) := by
  unfold Server.handCursor
  split
  . next hne =>
    simp only
    rw [hok hne]
    exact h.handOut hen.1 hne hen.2 .destroyCursor
  . exact h

theorem Inv.clientDel (hok : (s.clients cli).joined = true ∨ ∀ e ∈ (s.clients cli).globalRes, e.key = 0)
    : Inv (s.clientDel cli) := by
  have hreleased : ∃ w : Resources, (if (s.clients cli).joined then s.releaseGlobalRes cli else s) = { s with resources := w }
      ∧ w.count = s.resources.count ∧ w.holder = s.resources.holder
      ∧ ∀ i < s.resources.count, w.info i
        = if (s.resources.info i).gone = false ∧ (s.resources.info i).cli = cli then
            { s.resources.info i with released := 1 }
          else
            s.resources.info i := by
    by_cases hjoined : (s.clients cli).joined = true
    . rw [if_pos hjoined]
      have hfold := foldl_releaseEntry h.null h.holder_inj (h.res cli) (h.distinct cli)
      refine ⟨_, rfl, hfold.1, hfold.2.1, ?_⟩
      intro i hi
      rw [hfold.2.2 i]
      have hiff : (∃ e ∈ (s.clients cli).globalRes, s.resources.holder e.key = some i
            ∧ (s.resources.info i).kind = e.releaseProc)
          ↔ (s.resources.info i).gone = false ∧ (s.resources.info i).cli = cli := by
        constructor
        . rintro ⟨e, he, hhold, _⟩
          rcases h.entry cli e he (h.key_ne_zero hhold) with ⟨j, hj, hgone, hcli, haddr, _⟩
          have hj' := h.holds j hj hgone
          rw [haddr, hhold, Option.some.injEq] at hj'
          rw [hj']
          exact ⟨hgone, hcli⟩
        rintro ⟨hgone, hcli⟩
        rcases h.noted i hi hgone with ⟨e, he, hkey⟩
        have hhold := h.holds i hi hgone
        rw [hcli] at he
        rw [← hkey] at hhold
        rcases h.entry cli e he (h.key_ne_zero hhold) with ⟨j, hj, hgone', _, haddr, hkind⟩
        have hj' := h.holds j hj hgone'
        rw [haddr, hhold, Option.some.injEq] at hj'
        rw [← hj'] at hkind
        exact ⟨e, he, hhold, hkind⟩
      by_cases hlive : (s.resources.info i).gone = false ∧ (s.resources.info i).cli = cli
      . have hrel := h.released i hi
        rw [hlive.1] at hrel
        rw [if_pos (hiff.mpr hlive), if_pos hlive, hrel]
        rfl
      . rw [if_neg (mt hiff.mp hlive), if_neg hlive]
    rw [if_neg hjoined]
    refine ⟨s.resources, rfl, rfl, rfl, ?_⟩
    intro i hi
    rw [if_neg]
    rintro ⟨hgone, hcli⟩
    rcases h.noted i hi hgone with ⟨e, he, hkey⟩
    have hhold := h.holds i hi hgone
    rw [hcli] at he
    rw [← hkey] at hhold
    rcases hok with hjoined' | hzero
    . exact hjoined hjoined'
    . exact h.key_ne_zero hhold (hzero e he)
  rcases hreleased with ⟨w, hw, hcount, hholder, hinfo⟩
  have hdel : s.clientDel cli
      = { clients := update s.clients cli ⟨false, false, []⟩, resources := w.forget cli } := by
    unfold Server.clientDel
    simp only
    rw [hw]
    rfl
  have hafter : ∀ i < s.resources.count, (w.forget cli).info i
      = if (s.resources.info i).cli = cli then { s.resources.info i with released := 1, gone := true }
        else s.resources.info i := by
    intro i hi
    have hrel := h.released i hi
    simp only [Resources.forget, hinfo i hi]
    by_cases hcli : (s.resources.info i).cli = cli
    . by_cases hgone : (s.resources.info i).gone = false
      . simp [hcli, hgone]
      . rw [Bool.not_eq_false] at hgone
        rw [if_pos hgone] at hrel
        simp [hcli, hgone, ← hrel]
    . simp [hcli]
  have hstays : ∀ i < s.resources.count, ((w.forget cli).info i).gone = false
      → (s.resources.info i).cli ≠ cli ∧ (w.forget cli).info i = s.resources.info i := by
    intro i hi hgone
    rw [hafter i hi] at hgone ⊢
    by_cases hcli : (s.resources.info i).cli = cli
    . simp [hcli] at hgone
    . exact ⟨hcli, if_neg hcli⟩
  have hlist : ∀ cli' e, e ∈ (update s.clients cli ⟨false, false, []⟩ cli').globalRes
      → cli' ≠ cli ∧ e ∈ (s.clients cli').globalRes := by
    intro cli' e he
    by_cases hcli : cli' = cli
    . rw [hcli] at he
      simp at he
    . rw [update_of_ne hcli] at he
      exact ⟨hcli, he⟩
  rw [hdel]
  constructor
  . intro i hi
    change i < w.count at hi
    rw [hcount] at hi
    simp only [hafter i hi]
    by_cases hcli : (s.resources.info i).cli = cli
    . simp [hcli]
    . simp only [hcli, if_false]
      exact h.released i hi
  . intro i hi hgone
    change i < w.count at hi
    rw [hcount] at hi
    have hstay := hstays i hi hgone
    simp only [hstay.2] at hgone ⊢
    change w.holder _ = _
    rw [hholder]
    exact h.holds i hi hgone
  . intro p i hp
    change w.holder p = some i at hp
    rw [hholder] at hp
    have hheld := h.held p i hp
    change i < w.count ∧ _
    rw [hcount]
    refine ⟨hheld.1, ?_⟩
    simp only [hafter i hheld.1]
    split
    . exact hheld.2
    . exact hheld.2
  . change w.holder 0 = none
    rw [hholder]
    exact h.null
  . intro i hi hgone
    change i < w.count at hi
    rw [hcount] at hi
    have hstay := hstays i hi hgone
    simp only [hstay.2] at hgone ⊢
    simp only [update_of_ne hstay.1]
    exact h.noted i hi hgone
  . intro cli' e he hkey
    have hold := hlist cli' e he
    rcases h.entry cli' e hold.2 hkey with ⟨i, hi, hgone, hcli, haddr, hkind⟩
    refine ⟨i, ?_, ?_⟩
    . change i < w.count
      rw [hcount]
      exact hi
    . simp only [hafter i hi]
      rw [if_neg (by rw [hcli]; exact hold.1)]
      exact ⟨hgone, hcli, haddr, hkind⟩
  . intro cli' e he
    exact h.res cli' e (hlist cli' e he).2
  . intro cli'
    by_cases hcli : cli' = cli
    . simp [hcli]
    . simp only [update_of_ne hcli]
      exact h.distinct cli'
  intro cli' hfree
  by_cases hcli : cli' = cli
  . simp [hcli]
  . simp only [update_of_ne hcli] at hfree ⊢
    exact h.free cli' hfree

end

theorem Inv.exec (h : Inv s) {a : Action} (hen : s.Enabled a) (hok : s.KeepsOnce a) : Inv (s.exec a) := by
  cases a with
  | clientAdd cli =>
    apply h.setClient
    . intro e he
      rw [h.free cli hen] at he
      exact he
    . simp
    . simp
    . simp
  | joinLayer cli =>
    apply h.setClient
    . intro e he
      exact he
    . intro e he
      exact .inl he
    . exact h.distinct cli
    . exact h.free cli
  | loadCursor cli hcsr allocated | createCursor cli hcsr allocated => exact h.handCursor hen hok
  | destroyCursor cli hcsr =>
    have hsame : s.resources.destroyCursor hcsr = s.resources := release_of_none hok
    simp only [Server.exec, Server.destroyCursor, hsame]
    exact h.delGlobalRes hok
  | reqHwSurface cli bucket reply allocated =>
    simp only [Server.exec, Server.reqHwSurface]
    by_cases hbucket : bucket = 0
    . have hsame : s.resources.requestHWSurface bucket = s.resources := if_pos hbucket
      simp only [hbucket, if_true]
      simp only [Server.KeepsOnce, hbucket, if_true] at hok
      by_cases hreply : reply = 0
      . simp only [hreply, ne_eq, not_true_eq_false, if_false]
        exact h.addNull hen.1 allocated
      . simp only [ne_eq, hreply, not_false_eq_true, if_true]
        rw [hok hreply]
        exact h.handOut hen.1 hreply (hen.2 hbucket) .releaseHWS
    have hnone : s.resources.holder bucket = none := by
      simpa only [Server.KeepsOnce, hbucket, if_false] using hok
    have hsame : s.resources.requestHWSurface bucket = s.resources := by
      rw [Resources.requestHWSurface, if_neg hbucket, release_of_none hnone]
    simp only [hsame, hbucket, if_false]
    exact h.delGlobalRes hnone
  | clientDel cli => exact h.clientDel hok

theorem reachable_exec {ok : Server → Action → Prop} (h : Reachable Server.step ok Server.init s) (a : Action)
    (hok : ok s a) (hen : s.Enabled a) : Reachable Server.step ok Server.init (s.exec a) :=
  Reachable.step h hok ⟨hen, rfl⟩

theorem fresh_init (h : s.resources.count = 0) (address : Nat) : s.Fresh address := by
  intro i hi
  omega

end Runs

end MiniGui.GlobalRes
