import MiniGui.Kernel.PeekEffect
import MiniGui.Library.Fifo

namespace MiniGui

variable {q q' : MsgQueue} {msg : Msg}

namespace MsgQueue

structure RingOk (q : MsgQueue) : Prop where
  readpos_lt : q.readpos < q.len
  writepos_lt : q.writepos < q.len

def slots (q : MsgQueue) : List Nat :=
  Ring.slots q.len q.readpos q.writepos

def pending (q : MsgQueue) : List Msg :=
  q.slots.map q.msg

theorem RingOk.nodup_slots (h : q.RingOk) : q.slots.Nodup :=
  Ring.nodup_slots h.readpos_lt h.writepos_lt

theorem RingOk.length_slots_lt (h : q.RingOk) : q.slots.length < q.len :=
  Ring.length_slots_lt h.readpos_lt

theorem length_pending (q : MsgQueue) : q.pending.length = q.slots.length := by
  simp [pending]

theorem RingOk.pending_eq_nil_iff (h : q.RingOk) : q.pending = [] ↔ q.readpos = q.writepos := by
  rw [pending, List.map_eq_nil_iff]
  exact Ring.slots_eq_nil_iff h.readpos_lt h.writepos_lt

@[simp]
theorem setFlag_pending (q : MsgQueue) (flag : Nat) : (q.setFlag flag).pending = q.pending := by
  rfl

theorem advanceReadpos_eq (h : q.RingOk)
    : advanceReadpos q = { q with readpos := (q.readpos + 1) % q.len } := by
  have := h.readpos_lt
  unfold advanceReadpos
  rw [Ring.succ_mod h.readpos_lt]
  congr 1
  split <;> split <;> omega

theorem RingOk.advanceReadpos (h : q.RingOk) : (advanceReadpos q).RingOk := by
  rw [advanceReadpos_eq h]
  refine ⟨?_, h.writepos_lt⟩
  apply Nat.mod_lt
  have := h.readpos_lt
  omega

theorem RingOk.pending_cons (h : q.RingOk) (hne : q.readpos ≠ q.writepos)
    : q.pending = q.msg q.readpos :: (MiniGui.advanceReadpos q).pending := by
  rw [advanceReadpos_eq h]
  simp only [pending, slots]
  rw [Ring.slots_cons h.readpos_lt h.writepos_lt hne]
  rfl

end MsgQueue

def mergePosted (msg : Msg) (pending : List Msg) : Option (List Msg) :=
  if isMouseMove msg.message then
    Fifo.modifyLast (fun a => sameMouseMove a msg) (fun a => overwrite a msg) pending
  else if isTimeoutLike msg.message then
    Fifo.modifyFirst (fun a => sameTimeout a msg) (fun a => overwrite a msg) pending
  else
    none

theorem length_mergePosted (msg : Msg) (l m : List Msg) (h : mergePosted msg l = some m)
    : m.length = l.length := by
  unfold mergePosted at h
  split at h
  . exact Fifo.length_modifyLast h
  . split at h
    . exact Fifo.length_modifyFirst h
    . simp at h

theorem mouseMoveLoop_eq (fuel readpos : Nat) (last : Option Nat)
    (hr : readpos < q.len) (hw : q.writepos < q.len)
    (hfuel : (Ring.slots q.len readpos q.writepos).length < fuel)
    : mouseMoveLoop q msg fuel readpos last
        =
      ((Ring.slots q.len readpos q.writepos).reverse.find?
        (fun i => sameMouseMove (q.msg i) msg)).or last := by
  induction fuel generalizing readpos last with
  | zero => omega
  | succ fuel ih =>
    rw [mouseMoveLoop]
    split
    . next heq => simp [heq]
    rename_i hne
    rw [Ring.slots_cons hr hw hne] at hfuel ⊢
    rw [List.length_cons] at hfuel
    rw [ih]
    . rw [List.reverse_cons, List.find?_append, List.find?_singleton, Option.or_assoc]
      congr 1
      split <;> rfl
    . apply Nat.mod_lt
      omega
    . omega

theorem timeoutLoop_eq (fuel readpos : Nat) (hr : readpos < q.len) (hw : q.writepos < q.len)
    (hfuel : (Ring.slots q.len readpos q.writepos).length < fuel) : timeoutLoop q msg fuel readpos
        =
      (Ring.slots q.len readpos q.writepos).find? (fun i => sameTimeout (q.msg i) msg) := by
  induction fuel generalizing readpos with
  | zero => omega
  | succ fuel ih =>
    rw [timeoutLoop]
    split
    . next heq => simp [heq]
    rename_i hne
    rw [Ring.slots_cons hr hw hne] at hfuel ⊢
    rw [List.length_cons] at hfuel
    rw [List.find?_cons]
    split
    . next h => simp [h]
    rename_i h
    rw [Bool.not_eq_true] at h
    rw [h, ih]
    . apply Nat.mod_lt
      omega
    . omega

theorem duplicated_spec (h : q.RingOk) (msg : Msg) : mergePosted msg q.pending
        =
      (duplicated q msg).map (fun pos =>
        q.slots.map (Function.update q.msg pos (overwrite (q.msg pos) msg))) := by
  have hfuel := h.length_slots_lt
  unfold mergePosted duplicated MsgQueue.pending
  split
  . rw [Fifo.modifyLast_map h.nodup_slots]
    rw [mouseMoveLoop_eq _ _ _ h.readpos_lt h.writepos_lt hfuel, Option.or_none]
    rfl
  split
  . rw [Fifo.modifyFirst_map h.nodup_slots]
    rw [timeoutLoop_eq _ _ h.readpos_lt h.writepos_lt hfuel]
    rfl
  . rfl

theorem queueMessage_spec (h : q.RingOk) (msg : Msg) : (queueMessage q msg).2.RingOk
        ∧
      (queueMessage q msg).2.len = q.len
        ∧
      (queueMessage q msg).1
        = (mergePosted msg q.pending != none || q.pending.length != q.len - 1)
        ∧
      ((queueMessage q msg).1 = false → (queueMessage q msg).2 = q)
        ∧
      ((queueMessage q msg).1 = true → (queueMessage q msg).2.has QS_POSTMSG = true)
        ∧
      (queueMessage q msg).2.pending
        = match mergePosted msg q.pending with
          | some pending => pending
          | none =>
            if q.pending.length = q.len - 1 then q.pending else q.pending ++ [msg] := by
  have hr := h.readpos_lt
  have hw := h.writepos_lt
  have hspec := duplicated_spec h msg
  have hfull := Ring.full_iff hr hw
  have hlen := MsgQueue.length_pending q
  unfold queueMessage
  split
  . next pos hpos =>
    rw [hpos, Option.map_some] at hspec
    rw [hspec]
    refine ⟨⟨hr, hw⟩, rfl, by simp, by simp, ?_, rfl⟩
    simp [QS_POSTMSG]
  rename_i hnone
  rw [hnone, Option.map_none] at hspec
  rw [hspec]
  split
  . next hf =>
    rw [hfull] at hf
    have hf : q.pending.length = q.len - 1 := by
      rw [hlen]
      exact hf
    refine ⟨h, rfl, ?_, ?_, ?_, ?_⟩
    . simp [hf]
    . simp
    . simp
    . simp [hf]
  rename_i hf
  have hne : q.pending.length ≠ q.len - 1 := by
    rw [hlen]
    intro heq
    exact hf (hfull.mpr heq)
  have hwp : (if q.writepos + 1 ≥ q.len then 0 else q.writepos + 1) = (q.writepos + 1) % q.len := by
    rw [Ring.succ_mod hw]
    split <;> split <;> omega
  refine ⟨⟨hr, ?_⟩, rfl, ?_, ?_, ?_, ?_⟩
  . simp only [MsgQueue.setFlag]
    rw [hwp]
    apply Nat.mod_lt
    omega
  . simp [hne]
  . simp
  . simp [QS_POSTMSG]
  simp only [hne, ↓reduceIte, MsgQueue.setFlag_pending]
  simp only [MsgQueue.pending, MsgQueue.slots]
  rw [hwp, Ring.slots_concat hr hw hf, List.map_append, List.map_singleton,
    Function.update_self]
  congr 1
  apply List.map_congr_left
  intro i hi
  rw [Function.update_of_ne]
  intro heq
  rw [heq] at hi
  exact Ring.write_not_mem hr hw hi

section Read

namespace MsgQueue

def ring (q : MsgQueue) : (Nat → Msg) × Nat × Nat × Nat :=
  (q.msg, q.len, q.readpos, q.writepos)

def PostFlag (q : MsgQueue) : Prop :=
  q.readpos ≠ q.writepos → q.has QS_POSTMSG = true

theorem pending_of_ring (h : q'.ring = q.ring) : q'.pending = q.pending := by
  simp only [ring, Prod.mk.injEq] at h
  simp only [pending, slots, h]

theorem RingOk.of_ring (hq : q.RingOk) (h : q'.ring = q.ring) : q'.RingOk := by
  simp only [ring, Prod.mk.injEq] at h
  refine ⟨?_, ?_⟩
  . rw [h.2.2.1, h.2.1]
    exact hq.readpos_lt
  . rw [h.2.2.2, h.2.1]
    exact hq.writepos_lt

theorem PostFlag.clearFlag (h : q.PostFlag) {flag : Nat} (hne : flag ≠ QS_POSTMSG)
    : (q.clearFlag flag).PostFlag := by
  intro hpos
  have := h hpos
  simp [this, Ne.symm hne]

end MsgQueue

variable {κ τ : Type}

def KeepsRing (q : MsgQueue) (s : PeekState κ) : Prop :=
  s.queue.ring = q.ring ∧ s.queue.PostFlag

def TakesHead (env : PeekEnv τ) (q : MsgQueue) (e : PeekExit κ) : Prop :=
  KeepsRing q e.state
    ∨
  q.readpos ≠ q.writepos ∧ KeepsRing (advanceReadpos q) e.state
    ∧ e = .ret true
            (checkCapturedMouseMessage env (setPAdd env.build (q.msg q.readpos) none)) e.state

variable {env : PeekEnv τ} {args : PeekArgs}

theorem Settles.keepsRing {s t : PeekState κ} (h : Settles env args s t) (hflag : s.queue.PostFlag)
    : KeepsRing s.queue t := by
  rcases h with ⟨d, rfl, h⟩
  refine ⟨rfl, ?_⟩
  intro hne
  rw [h QS_POSTMSG (matters_post hne)]
  apply hflag hne

variable {t : PeekState κ}

theorem KeepsRing.unlessPeeked {taken : MsgQueue} (h : KeepsRing q t)
    (hring : taken.ring = t.queue.ring) (hflag : taken.PostFlag)
    : KeepsRing q (t.setQueue (unlessPeeked args taken t.queue)) := by
  unfold MiniGui.unlessPeeked
  split
  . refine ⟨?_, hflag⟩
    rw [← h.1]
    exact hring
  . exact h

theorem Effect.takesHead {e : PeekExit κ} (he : Effect env args t e) (h : KeepsRing q t)
    : TakesHead env q e := by
  cases he with
  | quit pMsg hquit =>
    apply Or.inl
    apply h.unlessPeeked
    . unfold takeQuit
      dsimp only
      split <;> rfl
    unfold takeQuit
    dsimp only
    split
    . apply MsgQueue.PostFlag.clearFlag h.2
      decide
    . exact h.2
  | sync first hb hsync hfirst | notify phead next hnotify hmsgs
  | deskTimers pMsg hmask => exact .inl (h.unlessPeeked rfl h.2)
  | posted hpost hne =>
    have hring := h.1
    simp only [MsgQueue.ring, Prod.mk.injEq] at hring
    by_cases hrem : args.uRemoveMsg = PM_REMOVE
    . apply Or.inr
      rw [MiniGui.unlessPeeked, if_pos hrem]
      refine ⟨?_, ⟨?_, ?_⟩, ?_⟩
      . rw [← hring.2.2.1, ← hring.2.2.2]
        exact hne
      . simp only [PeekExit.state, MsgQueue.ring, PeekState.setQueue, advanceReadpos, hring]
      . intro _
        exact hpost
      . rw [hring.1, hring.2.2.1]
        rfl
    . apply Or.inl
      rw [MiniGui.unlessPeeked, if_neg hrem]
      exact h
  | deskPaint pMsg hpaint | deskTimer pMsg hb hdesk => exact .inl (h.unlessPeeked rfl (h.2.clearFlag (by decide)))
  | paint pMsg hpaint | timerProc slot timer pMsg hslot htimer hproc
  | timer slot timer pMsg hslot htimer hproc | noTimer pMsg hnone | nothing pMsg => exact .inl h

variable (env args) in
theorem peekSection_ring (pMsg : Msg) (s : PeekState κ) (h : s.queue.PostFlag)
    : TakesHead env s.queue (peekSection env args pMsg s) := by
  rcases peekSection_does env args pMsg s with ⟨t, hst, he⟩
  apply he.takesHead
  apply hst.keepsRing h

theorem KeepsRing.pending {s : PeekState κ} (h : KeepsRing q s) : s.queue.pending = q.pending :=
  MsgQueue.pending_of_ring h.1

theorem peekPostMessage_ring (q : MsgQueue) (iMsgFilterMin iMsgFilterMax : Int)
    : (peekPostMessage q iMsgFilterMin iMsgFilterMax PM_REMOVE).2.2 = q
        ∨
      q.readpos ≠ q.writepos
        ∧ peekPostMessage q iMsgFilterMin iMsgFilterMax PM_REMOVE
            = (true, { q.msg q.readpos with pAdd := none }, advanceReadpos q)
        ∧ (advanceReadpos q).PostFlag := by
  unfold peekPostMessage
  split
  . next hflag =>
    split
    . next hne =>
      dsimp only
      split
      . apply Or.inr
        refine ⟨hne, by simp, ?_⟩
        intro _
        exact hflag
      . exact .inl rfl
    . exact .inl rfl
  . exact .inl rfl

end Read

section Run

variable {κ τ : Type}

/--
What may happen to a queue. `elsewhere` stands for all other code: it leaves the ring and its flag alone
and may change the rest.
-/
inductive PostOp (κ τ : Type) where
  | queueMessage (msg : Msg)
  | peekMessageEx (env : PeekEnv τ) (args : PeekArgs) (pMsg : Msg)
  | peekPostMessage (iMsgFilterMin iMsgFilterMax : Int)
  | elsewhere (s : PeekState κ)

def keepRing (q : MsgQueue) (s : PeekState κ) : PeekState κ :=
  let t :=
    { s.queue with msg := q.msg, len := q.len, readpos := q.readpos, writepos := q.writepos }
  s.setQueue (if q.has QS_POSTMSG then t.setFlag QS_POSTMSG else t.clearFlag QS_POSTMSG)

def taken (q q' : MsgQueue) : Fifo.Event Msg :=
  if q'.readpos = q.readpos then .quiet else .read (q.msg q.readpos)

namespace PostOp

def exec (op : PostOp κ τ) (s : PeekState κ) : Fifo.Event Msg × PeekState κ :=
  match op with
  | queueMessage msg =>
    let r := MiniGui.queueMessage s.queue msg
    (.posted msg r.1, s.setQueue r.2)
  | peekMessageEx env args pMsg =>
    let e := peekSection env { args with uRemoveMsg := PM_REMOVE } pMsg s
    (taken s.queue e.state.queue, e.state)
  | peekPostMessage iMsgFilterMin iMsgFilterMax =>
    let r := MiniGui.peekPostMessage s.queue iMsgFilterMin iMsgFilterMax PM_REMOVE
    (taken s.queue r.2.2, s.setQueue r.2.2)
  | elsewhere t => (.quiet, keepRing s.queue t)

def run : List (PostOp κ τ) → PeekState κ → List (Fifo.Event Msg) × PeekState κ
  | [], s => ([], s)
  | op :: ops, s =>
    let r := run ops (op.exec s).2
    ((op.exec s).1 :: r.1, r.2)

end PostOp

structure Holds (len : Nat) (f : Fifo Msg) (q : MsgQueue) : Prop where
  ok : q.RingOk
  len_eq : q.len = len
  pending : q.pending = f.pending
  flag : q.PostFlag

theorem Holds.of_ring {len : Nat} {f : Fifo Msg} (h : Holds len f q)
    (hring : q'.ring = q.ring) (hflag : q'.PostFlag) : Holds len f q' where
  ok := h.ok.of_ring hring
  len_eq := by
    simp only [MsgQueue.ring, Prod.mk.injEq] at hring
    rw [hring.2.1]
    exact h.len_eq
  pending := by
    rw [MsgQueue.pending_of_ring hring]
    exact h.pending
  flag := hflag

theorem readpos_of_ring (h : q'.ring = q.ring) : q'.readpos = q.readpos := by
  simp only [MsgQueue.ring, Prod.mk.injEq] at h
  exact h.2.2.1

variable {len : Nat} {f : Fifo Msg}

theorem Holds.quiet (h : Holds len f q) (hring : q'.ring = q.ring) (hflag : q'.PostFlag)
    : ∃ g, Fifo.Step (len - 1) mergePosted f (taken q q') g ∧ Holds len g q' := by
  refine ⟨f, ?_, h.of_ring hring hflag⟩
  rw [taken, if_pos (readpos_of_ring hring)]
  exact Fifo.Step.quiet f

theorem Holds.read (h : Holds len f q) (hlen : 2 ≤ len)
    (hne : q.readpos ≠ q.writepos) (hring : q'.ring = (advanceReadpos q).ring) (hflag : q'.PostFlag)
    : ∃ g, Fifo.Step (len - 1) mergePosted f (taken q q') g ∧ Holds len g q' := by
  have hcons := h.ok.pending_cons hne
  rw [h.pending] at hcons
  have hmoved : q'.readpos ≠ q.readpos := by
    rw [readpos_of_ring hring, MsgQueue.advanceReadpos_eq h.ok]
    dsimp only
    rw [Ring.succ_mod h.ok.readpos_lt]
    have := h.len_eq
    split <;> omega
  refine ⟨{ f with nread := f.nread + 1 }, ?_, ?_⟩
  . rw [taken, if_neg hmoved]
    exact Fifo.Step.read f _ _ hcons
  refine ⟨h.ok.advanceReadpos.of_ring hring, ?_, ?_, hflag⟩
  . simp only [MsgQueue.ring, Prod.mk.injEq] at hring
    rw [hring.2.1]
    exact h.len_eq
  rw [MsgQueue.pending_of_ring hring]
  simp only [Fifo.pending] at hcons ⊢
  rw [← List.drop_drop, hcons]
  rfl

theorem Holds.posted (h : Holds len f q) (hf : Fifo.Valid (len - 1) f) (msg : Msg)
    : (queueMessage q msg).1 = (Fifo.post (len - 1) mergePosted msg f).1
        ∧
      Holds len (Fifo.post (len - 1) mergePosted msg f).2 (queueMessage q msg).2 := by
  rcases queueMessage_spec h.ok msg with ⟨h1, h2, h3, h4, h5, h6⟩
  have hpost := (Fifo.post_spec (a := msg) hf length_mergePosted).2.2
  rw [h.len_eq, h.pending] at h6
  rw [h.len_eq, h.pending] at h3
  refine ⟨?_, h1, ?_, ?_, ?_⟩
  . rw [h3, Fifo.post]
    cases mergePosted msg f.pending with
    | none =>
      dsimp only
      split <;> simp [*]
    | some m => simp
  . rw [h2]
    exact h.len_eq
  . rw [h6, hpost]
    cases mergePosted msg f.pending <;> rfl
  cases hret : (queueMessage q msg).1 with
  | false =>
    rw [h4 hret]
    exact h.flag
  | true =>
    intro _
    exact h5 hret

theorem keepRing_ring (q : MsgQueue) (s : PeekState κ) : (keepRing q s).queue.ring = q.ring := by
  unfold keepRing PeekState.setQueue
  split <;> rfl

theorem keepRing_flag (h : q.PostFlag) (s : PeekState κ) : (keepRing q s).queue.PostFlag := by
  intro hne
  have hring := keepRing_ring q s
  simp only [MsgQueue.ring, Prod.mk.injEq] at hring
  rw [hring.2.2.1, hring.2.2.2] at hne
  have := h hne
  unfold keepRing PeekState.setQueue
  dsimp only
  rw [if_pos this, MsgQueue.has_setFlag]
  simp [QS_POSTMSG]

theorem exec_step {s : PeekState κ} (hlen : 2 ≤ len) (hf : Fifo.Valid (len - 1) f)
    (h : Holds len f s.queue) (op : PostOp κ τ)
    : ∃ g, Fifo.Step (len - 1) mergePosted f (op.exec s).1 g ∧ Holds len g (op.exec s).2.queue := by
  cases op with
  | queueMessage msg =>
    rcases h.posted hf msg with ⟨h1, h2⟩
    refine ⟨_, ?_, h2⟩
    simp only [PostOp.exec]
    rw [h1]
    exact Fifo.Step.post f msg
  | peekMessageEx env args pMsg =>
    simp only [PostOp.exec]
    rcases peekSection_ring env { args with uRemoveMsg := PM_REMOVE } pMsg s h.flag
      with hkeep | ⟨hne, hread, _⟩
    . exact h.quiet hkeep.1 hkeep.2
    . exact h.read hlen hne hread.1 hread.2
  | peekPostMessage iMsgFilterMin iMsgFilterMax =>
    simp only [PostOp.exec]
    rcases peekPostMessage_ring s.queue iMsgFilterMin iMsgFilterMax with hkeep | ⟨hne, hread, hflag⟩
    . rw [hkeep]
      exact h.quiet rfl h.flag
    . rw [hread]
      exact h.read hlen hne rfl hflag
  | elsewhere t =>
    refine ⟨f, Fifo.Step.quiet f, ?_⟩
    exact h.of_ring (keepRing_ring _ _) (keepRing_flag h.flag _)

theorem run_trace {s : PeekState κ} (hlen : 2 ≤ len) (hf : Fifo.Valid (len - 1) f)
    (h : Holds len f s.queue) (ops : List (PostOp κ τ))
    : ∃ g, Fifo.Trace (len - 1) mergePosted f (PostOp.run ops s).1 g
        ∧ Holds len g (PostOp.run ops s).2.queue := by
  induction ops generalizing s f with
  | nil => exact ⟨f, Fifo.Trace.nil f, h⟩
  | cons op ops ih =>
    rcases exec_step hlen hf h op with ⟨g, hstep, hg⟩
    have hvalid := ((Fifo.Trace.cons hstep (Fifo.Trace.nil g)).reads_eq length_mergePosted hf).1
    rcases ih hvalid hg with ⟨g', htrace, hg'⟩
    exact ⟨g', Fifo.Trace.cons hstep htrace, hg'⟩

theorem holds_init (hlen : 2 ≤ len) : Holds len Fifo.empty (initMsgQueue len) := by
  have hne : len ≠ 0 := by omega
  refine ⟨⟨?_, ?_⟩, ?_, ?_, ?_⟩
  . simp only [initMsgQueue, hne, ↓reduceIte]
    omega
  . simp only [initMsgQueue, hne, ↓reduceIte]
    omega
  . simp [initMsgQueue, hne]
  . simp [MsgQueue.pending, MsgQueue.slots, initMsgQueue, Fifo.pending, Fifo.empty]
  . intro hpos
    simp [initMsgQueue] at hpos

/--
The posted messages through any sequence of operations on a new queue.
-/
theorem posted_messages_fifo (hlen : 2 ≤ len) (timerstr : TimerTable κ) (ops : List (PostOp κ τ))
    : ∃ f : Fifo Msg,
        Fifo.Trace (len - 1) mergePosted Fifo.empty
            (PostOp.run ops { queue := initMsgQueue len, timerstr }).1 f
          ∧
        f.accepted
          = Fifo.reads (PostOp.run ops { queue := initMsgQueue len, timerstr }).1
              ++ (PostOp.run ops { queue := initMsgQueue len, timerstr }).2.queue.pending
          ∧
        ∀ s, s = (PostOp.run ops { queue := initMsgQueue len, timerstr }).2 →
          (∀ msg,
            ((queueMessage s.queue msg).1 = false
                ↔ mergePosted msg s.queue.pending = none ∧ s.queue.pending.length = len - 1)
              ∧
            ((queueMessage s.queue msg).1 = false → (queueMessage s.queue msg).2 = s.queue))
            ∧
          (∀ (env : PeekEnv τ) args pMsg,
            (peekSection env args pMsg s).state.queue.pending = s.queue.pending
              ∨
            ∃ m rest t, s.queue.pending = m :: rest
              ∧ peekSection env args pMsg s
                  = .ret true (checkCapturedMouseMessage env (setPAdd env.build m none)) t
              ∧ t.queue.pending = rest)
            ∧
          (∀ m rest, s.queue.pending = m :: rest →
            (peekPostMessage s.queue 0 0 PM_REMOVE).1 = true
              ∧ (peekPostMessage s.queue 0 0 PM_REMOVE).2.1 = { m with pAdd := none }
              ∧ (peekPostMessage s.queue 0 0 PM_REMOVE).2.2.pending = rest) := by
  rcases run_trace hlen (Fifo.valid_empty _) (holds_init hlen) ops
    (s := { queue := initMsgQueue len, timerstr }) with ⟨f, htrace, hf⟩
  refine ⟨f, htrace, ?_, ?_⟩
  . rw [htrace.accepted_eq length_mergePosted, hf.pending]
  intro s hs
  rw [← hs] at hf
  refine ⟨?_, ?_, ?_⟩
  . intro msg
    rcases queueMessage_spec hf.ok msg with ⟨_, _, h3, h4, _⟩
    rw [hf.len_eq] at h3
    refine ⟨?_, h4⟩
    rw [h3]
    simp
  . intro env args pMsg
    rcases peekSection_ring env args pMsg s hf.flag
      with hkeep | ⟨hne, hread, hret⟩
    . exact .inl hkeep.pending
    . exact .inr ⟨_, _, _, hf.ok.pending_cons hne, hret, hread.pending⟩
  intro m rest hcons
  have hne : s.queue.readpos ≠ s.queue.writepos := by
    rw [Ne, ← hf.ok.pending_eq_nil_iff, hcons]
    simp
  have hhead := hf.ok.pending_cons hne
  rw [hcons, List.cons.injEq] at hhead
  have hflag := hf.flag hne
  simp [peekPostMessage, hflag, hne, hhead]

def wrappingRun : List (PostOp Unit Unit) :=
  [
    .queueMessage { Msg.zero with message := 0x10 },
    .queueMessage { Msg.zero with message := 0x11 },
    .queueMessage { Msg.zero with message := 0x12 },
    .peekPostMessage 0 0,
    .queueMessage { Msg.zero with message := 0x13 },
    .peekPostMessage 0 0
  ]

theorem posted_messages_fifo_wraps : ∃ f : Fifo Msg,
        f.accepted.map Msg.message = [0x10, 0x11, 0x13]
          ∧ (Fifo.reads (PostOp.run wrappingRun
              { queue := initMsgQueue 3, timerstr := fun _ => none }).1).map Msg.message
                = [0x10, 0x11] := by
  rcases posted_messages_fifo (by decide : 2 ≤ 3) (fun _ => none) wrappingRun
    with ⟨f, _, haccepted, _⟩
  refine ⟨f, ?_, by decide⟩
  rw [haccepted]
  decide

end Run

end MiniGui
