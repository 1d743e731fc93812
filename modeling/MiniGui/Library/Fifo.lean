import Mathlib

structure Fifo (α : Type) where
  accepted : List α
  nread : Nat

namespace Fifo

open Function List Option

variable {α : Type}

inductive Event (α : Type) where
  | posted (a : α) (ok : Bool)
  | read (a : α)
  | quiet
deriving DecidableEq, Repr

def empty : Fifo α :=
  { accepted := [], nread := 0 }

def pending (f : Fifo α) : List α :=
  f.accepted.drop f.nread

def past (f : Fifo α) : List α :=
  f.accepted.take f.nread

def modifyFirst (p : α → Bool) (g : α → α) : List α → Option (List α)
  | [] => none
  | a :: l => if p a then some (g a :: l) else (modifyFirst p g l).map (a :: ·)

def modifyLast (p : α → Bool) (g : α → α) (l : List α) : Option (List α) :=
  (modifyFirst p g l.reverse).map reverse

variable {g : α → α} {p : α → Bool} {f : Nat → α} {l : List Nat}

theorem length_modifyFirst {l m : List α} (h : modifyFirst p g l = some m)
    : m.length = l.length := by
  induction l generalizing m with
  | nil => simp [modifyFirst] at h
  | cons a l ih =>
    rw [modifyFirst] at h
    split at h
    . simp only [Option.some.injEq] at h
      simp [← h]
    . rw [map_eq_some_iff] at h
      rcases h with ⟨m', hm', heq⟩
      rw [← heq, length_cons, length_cons, ih hm']

theorem length_modifyLast {l m : List α} (h : modifyLast p g l = some m) : m.length = l.length := by
  rw [modifyLast, map_eq_some_iff] at h
  rcases h with ⟨m', hm', heq⟩
  rw [← heq, length_reverse, length_modifyFirst hm', length_reverse]

theorem modifyFirst_map (hl : l.Nodup) : modifyFirst p g (l.map f)
        =
      (l.find? (fun i => p (f i))).map (fun i => l.map (Function.update f i (g (f i)))) := by
  induction l with
  | nil => rfl
  | cons i l ih =>
    rw [nodup_cons] at hl
    rw [map_cons, modifyFirst, find?_cons]
    split
    . next h =>
      rw [h]
      simp only [map_some, map_cons, update_self, Option.some.injEq,
        List.cons.injEq, true_and]
      apply map_congr_left
      intro j hj
      rw [update_of_ne]
      intro heq
      exact hl.1 (heq ▸ hj)
    rename_i h
    rw [Bool.not_eq_true] at h
    rw [h, ih hl.2, Option.map_map]
    cases hf : l.find? (fun i => p (f i)) with
    | none => rfl
    | some j =>
      have hj := mem_of_find?_eq_some hf
      have hij : i ≠ j := by
        intro heq
        exact hl.1 (heq ▸ hj)
      simp [update_of_ne hij]

theorem modifyLast_map (hl : l.Nodup) : modifyLast p g (l.map f)
        =
      (l.reverse.find? (fun i => p (f i))).map
        (fun i => l.map (Function.update f i (g (f i)))) := by
  rw [modifyLast, ← map_reverse, modifyFirst_map (nodup_reverse.mpr hl), Option.map_map]
  congr 1
  funext i
  simp

variable (cap : Nat) (merge : α → List α → Option (List α))

def post (a : α) (f : Fifo α) : Bool × Fifo α :=
  match merge a f.pending with
  | some pending => (true, { f with accepted := f.past ++ pending })
  | none =>
    if f.pending.length = cap then
      (false, f)
    else
      (true, { f with accepted := f.accepted ++ [a] })

inductive Step : Fifo α → Event α → Fifo α → Prop where
  | post (f : Fifo α) (a : α) : Step f (.posted a (post cap merge a f).1) (post cap merge a f).2
  | read (f : Fifo α) (a : α) (rest : List α) (h : f.pending = a :: rest) :
      Step f (.read a) { f with nread := f.nread + 1 }
  | quiet (f : Fifo α) : Step f .quiet f

inductive Trace : Fifo α → List (Event α) → Fifo α → Prop where
  | nil (f : Fifo α) : Trace f [] f
  | cons {f g h : Fifo α} {e : Event α} {es : List (Event α)} (hstep : Step cap merge f e g)
      (hrest : Trace g es h) : Trace f (e :: es) h

def reads : List (Event α) → List α
  | [] => []
  | .read a :: es => a :: reads es
  | _ :: es => reads es

structure Valid (f : Fifo α) : Prop where
  nread_le : f.nread ≤ f.accepted.length
  bounded : f.pending.length ≤ cap

theorem past_append_pending (f : Fifo α) : f.past ++ f.pending = f.accepted := by
  simp [past, pending]

theorem valid_empty : Valid cap (empty : Fifo α) := by
  constructor
  . simp [empty]
  . simp [empty, pending]

section Merging

variable {cap merge} {a : α} {es : List (Event α)}

theorem post_spec {f : Fifo α} (hf : Valid cap f)
    (hmerge : ∀ a l m, merge a l = some m → m.length = l.length) : Valid cap (post cap merge a f).2
        ∧
      (post cap merge a f).2.past = f.past
        ∧
      (post cap merge a f).2.pending
        = match merge a f.pending with
          | some pending => pending
          | none => if f.pending.length = cap then f.pending else f.pending ++ [a] := by
  have hlen : f.past.length = f.nread := by
    simp only [past, length_take]
    have := hf.nread_le
    omega
  unfold post
  split
  . next m hm =>
    have hpast : (⟨f.past ++ m, f.nread⟩ : Fifo α).past = f.past := by
      simp only [past] at hlen ⊢
      rw [take_left' hlen]
    have hpend : (⟨f.past ++ m, f.nread⟩ : Fifo α).pending = m := by
      simp only [pending]
      rw [drop_left' hlen]
    refine ⟨⟨?_, ?_⟩, hpast, hpend⟩
    . simp only [length_append]
      omega
    . rw [hpend, hmerge a _ m hm]
      exact hf.bounded
  split
  . exact ⟨hf, rfl, rfl⟩
  rename_i hne
  have hpend : (⟨f.accepted ++ [a], f.nread⟩ : Fifo α).pending = f.pending ++ [a] := by
    simp only [pending]
    rw [drop_append_of_le_length hf.nread_le]
  refine ⟨⟨?_, ?_⟩, ?_, hpend⟩
  . have := hf.nread_le
    simp only [length_append]
    omega
  . have := hf.bounded
    rw [hpend, length_append, length_singleton]
    omega
  . simp only [past]
    rw [take_append_of_le_length hf.nread_le]

theorem read_spec {f : Fifo α} {rest : List α} (hf : Valid cap f) (h : f.pending = a :: rest)
    : Valid cap { f with nread := f.nread + 1 }
        ∧
      Fifo.past { f with nread := f.nread + 1 } = f.past ++ [a]
        ∧
      Fifo.pending { f with nread := f.nread + 1 } = rest := by
  have hpend : Fifo.pending { f with nread := f.nread + 1 } = rest := by
    simp only [pending] at h ⊢
    rw [← drop_drop, h]
    rfl
  have hlt : f.nread < f.accepted.length := by
    have := congrArg List.length h
    simp only [pending, length_drop, length_cons] at this
    omega
  refine ⟨⟨hlt, ?_⟩, ?_, hpend⟩
  . have := hf.bounded
    rw [h, length_cons] at this
    rw [hpend]
    omega
  have := past_append_pending f
  rw [h] at this
  simp only [past] at this ⊢
  rw [take_add_one]
  congr 1
  rw [← head?_drop]
  simp only [pending] at h
  rw [h]
  rfl

theorem Trace.reads_eq {f g : Fifo α} (h : Trace cap merge f es g)
    (hmerge : ∀ a l m, merge a l = some m → m.length = l.length) (hf : Valid cap f)
    : Valid cap g ∧ g.past = f.past ++ reads es := by
  induction h with
  | nil f => simp [reads, hf]
  | cons hstep hrest ih =>
    cases hstep with
    | post a =>
      rcases post_spec (a := a) hf hmerge with ⟨h1, h2, _⟩
      rcases ih h1 with ⟨ih1, ih2⟩
      rw [h2] at ih2
      exact ⟨ih1, ih2⟩
    | read a rest hpend =>
      rcases read_spec hf hpend with ⟨h1, h2, _⟩
      rcases ih h1 with ⟨ih1, ih2⟩
      rw [h2, append_assoc] at ih2
      exact ⟨ih1, ih2⟩
    | quiet => exact ih hf

theorem Trace.accepted_eq {g : Fifo α} (h : Trace cap merge empty es g)
    (hmerge : ∀ a l m, merge a l = some m → m.length = l.length)
    : g.accepted = reads es ++ g.pending := by
  have hpast := (h.reads_eq hmerge (valid_empty cap)).2
  rw [← past_append_pending g, hpast]
  simp [past, empty]

end Merging

end Fifo
