import MiniGui.Kernel.PeekPure

namespace MiniGui

open Bits (has)

variable {κ τ : Type}

theorem timerSlotLoop_eq_none {timerMask : BitVec 32} {first n fuel : Nat}
    (hfuel : fuel + n = DEF_NR_TIMERS)
    (h : timerSlotLoop timerMask first fuel ((first + n) % DEF_NR_TIMERS) = none)
    : ∀ j, n ≤ j → j < DEF_NR_TIMERS →
        has timerMask ((first + j) % DEF_NR_TIMERS) = false := by
  induction fuel generalizing n with
  | zero =>
    intro j hj hlt
    omega
  | succ fuel ih =>
    rw [timerSlotLoop] at h
    split at h
    . simp at h
    rename_i hbit
    rw [Bool.not_eq_true] at hbit
    have hnext : ((first + n) % DEF_NR_TIMERS + 1) % DEF_NR_TIMERS
        = (first + (n + 1)) % DEF_NR_TIMERS := by
      rw [Nat.mod_add_mod]
      rfl
    dsimp only at h
    rw [hnext] at h
    intro j hj hlt
    by_cases heq : j = n
    . rw [heq]
      exact hbit
    split at h
    . next hround =>
      -- The scan is back at its start: there was no slot left.
      simp only [DEF_NR_TIMERS] at *
      omega
    . apply ih (n := n + 1) (by omega) h
      . omega
      . exact hlt

theorem expiredSlot_isSome {q : MsgQueue} (hfirst : q.firstTimerSlot < DEF_NR_TIMERS)
    (hmask : q.timerMask ≠ 0) : ∃ slot, expiredSlot q = some slot := by
  cases h : expiredSlot q with
  | some slot => exact ⟨slot, rfl⟩
  | none =>
    have hstart : (q.firstTimerSlot + 0) % DEF_NR_TIMERS = q.firstTimerSlot := by
      rw [Nat.add_zero]
      apply Nat.mod_eq_of_lt hfirst
    have hall := timerSlotLoop_eq_none (n := 0)
      (rfl : DEF_NR_TIMERS + 0 = DEF_NR_TIMERS) (by
      rw [hstart]
      exact h)
    rcases Bits.exists_has_of_ne_zero hmask with ⟨k, hk, hbit⟩
    have hj := hall ((k + DEF_NR_TIMERS - q.firstTimerSlot) % DEF_NR_TIMERS) (by omega)
      (Nat.mod_lt _ (by decide))
    have hpos : (q.firstTimerSlot + (k + DEF_NR_TIMERS - q.firstTimerSlot) % DEF_NR_TIMERS)
        % DEF_NR_TIMERS = k := by
      simp only [DEF_NR_TIMERS] at *
      omega
    rw [hpos, hbit] at hj
    simp at hj

theorem expiredSlot_first {q : MsgQueue} (h : has q.timerMask q.firstTimerSlot = true)
    : expiredSlot q = some q.firstTimerSlot := by
  rw [expiredSlot, DEF_NR_TIMERS, timerSlotLoop, if_pos h]

section Call

variable {env : PeekEnv τ} {args : PeekArgs}

def ReachesTimerSlots (env : PeekEnv τ) (args : PeekArgs) (s : PeekState κ) : Prop :=
  (∀ src, ¬Pending env args s.queue src)
    ∧
  s.queue.timerMask ≠ 0 ∧ isMsgWanted args MSG_TIMER = true
    ∧
  ¬(env.build = .threads ∧ args.hWnd = HWND_DESKTOP)

def Serves (s : PeekState κ) (e : PeekExit κ) (slot : Nat) : Prop :=
  ∃ timer, getTimer s.timerstr (some slot) = some timer ∧
    match e with
    | .callProc timer' slot' tickCount _ _ =>
      timer.proc ≠ none ∧ timer' = { timer with tickCount := 0 } ∧ slot' = slot
        ∧ tickCount = timer.tickCount
    | .ret result pMsg _ =>
      timer.proc = none ∧ result = true ∧ pMsg.hwnd = timer.hWnd ∧ pMsg.message = MSG_TIMER
        ∧ pMsg.wParam = BitVec.ofInt 32 timer.id ∧ pMsg.lParam = timer.tickCount
    | .noMessage _ _ => False

structure TimerCall (s : PeekState κ) (e : PeekExit κ) (slot : Nat) : Prop where
  picked : expiredSlot s.queue = some slot
  bit : Bits.has s.queue.timerMask slot = true
  installed : getTimer s.timerstr (some slot) ≠ none →
    Serves s e slot ∧ e.state.queue.timerMask = Bits.clear s.queue.timerMask slot
  stale : getTimer s.timerstr (some slot) = none →
    (∃ pMsg t, e = .noMessage pMsg t) ∧ e.state.queue.timerMask = s.queue.timerMask
  first : e.state.queue.firstTimerSlot = (s.queue.firstTimerSlot + 1) % DEF_NR_TIMERS

theorem isPart_pass {s t : PeekState κ} {result : Bool} {look : Msg → PeekState κ → Except Msg Msg}
    {part : Msg × PeekState κ → PeekPart κ} {src : Source}
    (hpart : IsPart env args result look part)
    (hlook : ∀ pMsg t, IsError (look pMsg t) ↔ Pending env args t.queue src)
    (hst : Settles env args s t) (hs : ¬Pending env args s.queue src) (pMsg : Msg)
    : ∃ pMsg' u, part (pMsg, t) = .ok (pMsg', u) ∧ Settles env args s u := by
  have h1 := hpart pMsg t
  have h2 := hlook pMsg t
  rw [← hst.pending_iff src] at h2
  generalize look pMsg t = l at h1 h2
  generalize part (pMsg, t) = r at h1 ⊢
  unfold Shows at h1
  split at h1
  . exact absurd (h2.mp trivial) hs
  . next m m1 t1 => exact ⟨m1, t1, rfl, hst.trans h1.2⟩
  . exact h1.elim

theorem peekSection_timer {s : PeekState κ} (h : ∀ src, ¬Pending env args s.queue src) (pMsg : Msg)
    : ∃ pMsg' t, Settles env args s t ∧
        peekSection env args pMsg s
          = match peekTimer env args (pMsg', t) with
            | .error e => e
            | .ok (pMsg, s) => .noMessage pMsg s := by
  rcases isPart_pass peekQuit_isPart lookQuit_pending (Settles.refl s) (h _) pMsg
    with ⟨m1, t1, h1, hs1⟩
  rcases isPart_pass peekSync_isPart lookSync_pending hs1 (h _) m1 with ⟨m2, t2, h2, hs2⟩
  rcases isPart_pass peekNotify_isPart lookNotify_pending hs2 (h _) m2 with ⟨m3, t3, h3, hs3⟩
  rcases isPart_pass peekPosted_isPart lookPosted_pending hs3 (h _) m3 with ⟨m4, t4, h4, hs4⟩
  rcases isPart_pass peekPaint_isPart lookPaint_pending hs4 (h _) m4 with ⟨m5, t5, h5, hs5⟩
  rcases isPart_pass peekDeskTimer_isPart lookDeskTimer_pending hs5 (h _) m5
    with ⟨m6, t6, h6, hs6⟩
  refine ⟨m6, t6, hs6, ?_⟩
  unfold peekSection
  rw [h1]
  dsimp only [Bind.bind, Except.bind]
  rw [h2]
  dsimp only
  rw [h3]
  dsimp only
  rw [h4]
  dsimp only
  rw [h5]
  dsimp only
  rw [h6]
  dsimp only
  cases peekTimer env args (m6, t6) <;> rfl

theorem peekSection_timerCall {s : PeekState κ} (h : ReachesTimerSlots env args s)
    (hfirst : s.queue.firstTimerSlot < DEF_NR_TIMERS) (pMsg : Msg)
    : ∃ slot, TimerCall s (peekSection env args pMsg s) slot := by
  rcases expiredSlot_isSome hfirst h.2.1 with ⟨slot, hslot⟩
  rcases peekSection_timer h.1 pMsg with ⟨pMsg', t, ⟨d, ht, _⟩, hsec⟩
  have hslot' : expiredSlot t.queue = some slot := by
    rw [ht]
    exact hslot
  have hmask : t.queue.timerMask = s.queue.timerMask := by
    rw [ht]
    rfl
  have hfirst' : t.queue.firstTimerSlot = s.queue.firstTimerSlot := by
    rw [ht]
    rfl
  have htimers : t.timerstr = s.timerstr := by
    rw [ht]
    rfl
  refine ⟨slot, ?_⟩
  rw [hsec]
  unfold peekTimer
  dsimp only
  rw [if_pos ⟨by rw [hmask]; exact h.2.1, h.2.2.1⟩, if_neg h.2.2.2, hslot', htimers, hfirst', hmask]
  cases hg : getTimer s.timerstr (some slot) with
  | none =>
    refine ⟨hslot, expiredSlot_has hslot, ?_, ?_, rfl⟩
    . intro hne
      exact absurd hg hne
    . intro _
      exact ⟨⟨_, _, rfl⟩, rfl⟩
  | some timer =>
    have hbuild : ∀ m : Msg, (setPAdd env.build m none).hwnd = m.hwnd
        ∧ (setPAdd env.build m none).message = m.message
        ∧ (setPAdd env.build m none).wParam = m.wParam
        ∧ (setPAdd env.build m none).lParam = m.lParam := by
      intro m
      cases env.build <;> simp [setPAdd]
    dsimp only
    cases hproc : timer.proc with
    | some proc =>
      refine ⟨hslot, expiredSlot_has hslot, ?_, ?_, rfl⟩
      . intro _
        refine ⟨⟨timer, hg, ?_, ?_, rfl, rfl⟩, rfl⟩
        . simp [hproc]
        . rw [← hproc]
      . intro hno
        rw [hg] at hno
        simp at hno
    | none =>
      refine ⟨hslot, expiredSlot_has hslot, ?_, ?_, rfl⟩
      . intro _
        refine ⟨⟨timer, hg, hproc, rfl, ?_⟩, rfl⟩
        simp only [hbuild]
        exact ⟨trivial, trivial, trivial, trivial⟩
      . intro hno
        rw [hg] at hno
        simp at hno

end Call

structure TimerRun (κ τ : Type) where
  env : Nat → PeekEnv τ
  args : Nat → PeekArgs
  pMsg : Nat → Msg
  state : Nat → PeekState κ
  first_lt : (state 0).queue.firstTimerSlot < DEF_NR_TIMERS
  reaches : ∀ i, ReachesTimerSlots (env i) (args i) (state i)
  first_next : ∀ i, (state (i + 1)).queue.firstTimerSlot
    = (peekSection (env i) (args i) (pMsg i) (state i)).state.queue.firstTimerSlot

namespace TimerRun

variable (r : TimerRun κ τ)

def call (i : Nat) : PeekExit κ :=
  peekSection (r.env i) (r.args i) (r.pMsg i) (r.state i)

theorem first_lt' (i : Nat) : (r.state i).queue.firstTimerSlot < DEF_NR_TIMERS := by
  induction i with
  | zero => exact r.first_lt
  | succ i ih =>
    rcases peekSection_timerCall (r.reaches i) ih (r.pMsg i) with ⟨slot, hcall⟩
    rw [r.first_next i, hcall.first]
    apply Nat.mod_lt
    decide

theorem timerCall (i : Nat) : ∃ slot, TimerCall (r.state i) (r.call i) slot :=
  peekSection_timerCall (r.reaches i) (r.first_lt' i) (r.pMsg i)

theorem first_add (n i : Nat) : (r.state (n + i)).queue.firstTimerSlot
        =
      ((r.state n).queue.firstTimerSlot + i) % DEF_NR_TIMERS := by
  induction i with
  | zero =>
    rw [Nat.add_zero, Nat.add_zero]
    exact (Nat.mod_eq_of_lt (r.first_lt' n)).symm
  | succ i ih =>
    rcases r.timerCall (n + i) with ⟨slot, hcall⟩
    rw [← Nat.add_assoc, r.first_next (n + i)]
    have := hcall.first
    rw [call] at this
    rw [this, ih, Nat.mod_add_mod, Nat.add_assoc]

theorem bit_until_picked {k n i : Nat} (hbit : has (r.state n).queue.timerMask k = true)
    (hkeep : ∀ j, n ≤ j → j < n + i →
      has (r.call j).state.queue.timerMask k = true →
        has (r.state (j + 1)).queue.timerMask k = true)
    (hnot : ∀ j, n ≤ j → j < n + i → ¬TimerCall (r.state j) (r.call j) k)
    : has (r.state (n + i)).queue.timerMask k = true := by
  induction i with
  | zero => exact hbit
  | succ i ih =>
    have hprev := ih (fun j h1 h2 => hkeep j h1 (by omega)) (fun j h1 h2 => hnot j h1 (by omega))
    rcases r.timerCall (n + i) with ⟨slot, hcall⟩
    apply hkeep (n + i)
    . omega
    . omega
    by_cases hinst : getTimer (r.state (n + i)).timerstr (some slot) = none
    . rw [(hcall.stale hinst).2]
      exact hprev
    have hne : k ≠ slot := by
      intro heq
      rw [← heq] at hcall
      apply hnot (n + i) (by omega) (by omega) hcall
    rw [(hcall.installed hinst).2, Bits.has_clear]
    simp [hprev, hne]

theorem picked_within {k n : Nat} (hbit : has (r.state n).queue.timerMask k = true)
    (hkeep : ∀ j, n ≤ j → j < n + DEF_NR_TIMERS →
      has (r.call j).state.queue.timerMask k = true →
        has (r.state (j + 1)).queue.timerMask k = true)
    : ∃ j, n ≤ j ∧ j < n + DEF_NR_TIMERS ∧ TimerCall (r.state j) (r.call j) k := by
  have hk : k < DEF_NR_TIMERS := Bits.lt_of_has hbit
  have hfirst := r.first_lt' n
  rcases hi : (k + DEF_NR_TIMERS - (r.state n).queue.firstTimerSlot) % DEF_NR_TIMERS with i
  have hlt : i < DEF_NR_TIMERS := by
    rw [← hi]
    apply Nat.mod_lt
    decide
  by_cases hbefore : ∃ j, n ≤ j ∧ j < n + i ∧ TimerCall (r.state j) (r.call j) k
  . rcases hbefore with ⟨j, h1, h2, hcall⟩
    exact ⟨j, h1, by omega, hcall⟩
  have hstill := r.bit_until_picked (i := i) hbit (fun j h1 h2 => hkeep j h1 (by omega))
    (fun j h1 h2 hcall => hbefore ⟨j, h1, h2, hcall⟩)
  have hstart : (r.state (n + i)).queue.firstTimerSlot = k := by
    rw [r.first_add n i]
    simp only [DEF_NR_TIMERS] at *
    omega
  rcases r.timerCall (n + i) with ⟨slot, hcall⟩
  have hslot : some slot = some k := by
    rw [← hcall.picked, ← hstart]
    apply expiredSlot_first
    rw [hstart]
    exact hstill
  rw [Option.some.inj hslot] at hcall
  exact ⟨n + i, by omega, by omega, hcall⟩

/--
Every call picks a slot whose bit is set, and serving it clears that bit and no other; and a slot with its
bit set and a timer in it is served within `DEF_NR_TIMERS` calls, whatever happens to the other slots.
-/
theorem timers_served : (∀ i, ∃ slot, TimerCall (r.state i) (r.call i) slot)
        ∧
      ∀ k n,
        Bits.has (r.state n).queue.timerMask k = true →
        (∀ j, n ≤ j → j < n + DEF_NR_TIMERS → getTimer (r.state j).timerstr (some k) ≠ none) →
        (∀ j, n ≤ j → j < n + DEF_NR_TIMERS →
          Bits.has (r.call j).state.queue.timerMask k = true →
            Bits.has (r.state (j + 1)).queue.timerMask k = true) →
        ∃ j, n ≤ j ∧ j < n + DEF_NR_TIMERS ∧ Serves (r.state j) (r.call j) k
          ∧ (r.call j).state.queue.timerMask = Bits.clear (r.state j).queue.timerMask k := by
  refine ⟨r.timerCall, ?_⟩
  intro k n hbit hinst hkeep
  rcases r.picked_within hbit hkeep with ⟨j, h1, h2, hcall⟩
  have hserves := hcall.installed (hinst j h1 h2)
  exact ⟨j, h1, h2, hserves.1, hserves.2⟩

end TimerRun

def twoExpired (timerstr : TimerTable Unit) (i : Nat) : PeekState Unit :=
  {
    queue := { initMsgQueue 8 with timerMask := 9, firstTimerSlot := i % DEF_NR_TIMERS }
    timerstr
  }

theorem twoExpired_reaches (timerstr : TimerTable Unit) (i : Nat)
    : ReachesTimerSlots noWindows { peekOne with uRemoveMsg := PM_REMOVE }
        (twoExpired timerstr i) := by
  refine ⟨?_, ?_, by decide, by decide⟩
  . intro src
    cases src <;> simp [Pending, twoExpired, initMsgQueue, MsgQueue.has, has, noWindows]
  . simp [twoExpired]

theorem twoExpired_has (timerstr : TimerTable Unit) (i : Nat)
    : has (twoExpired timerstr i).queue.timerMask 3 = true := by
  simp [twoExpired, has]

def twoExpiredRun (timerstr : TimerTable Unit) : TimerRun Unit Unit :=
  {
    env := fun _ => noWindows
    args := fun _ => { peekOne with uRemoveMsg := PM_REMOVE }
    pMsg := fun _ => Msg.zero
    state := twoExpired timerstr
    first_lt := by simp [twoExpired, DEF_NR_TIMERS]
    reaches := twoExpired_reaches timerstr
    first_next := by
      intro i
      have hlt : i % DEF_NR_TIMERS < DEF_NR_TIMERS := Nat.mod_lt _ (by decide)
      rcases peekSection_timerCall (twoExpired_reaches timerstr i) hlt Msg.zero
        with ⟨slot, hcall⟩
      rw [hcall.first]
      simp [twoExpired]
  }

def allInstalled : TimerTable Unit :=
  fun slot =>
    some
      {
        addr := slot
        hWnd := 1
        id := slot + 1
        speed := 10
        count := 0
        proc := none
        tickCount := 5
        msgQueue := ()
      }

theorem timers_served_two : ∃ j, 0 ≤ j ∧ j < 0 + DEF_NR_TIMERS ∧
        Serves (twoExpired allInstalled j)
          ((twoExpiredRun allInstalled).call j) 3
          ∧ ((twoExpiredRun allInstalled).call j).state.queue.timerMask
              = Bits.clear 9 3 := by
  apply (twoExpiredRun allInstalled).timers_served.2 3 0
  . apply twoExpired_has
  . intro j _ _
    simp [twoExpiredRun, twoExpired, getTimer, allInstalled, DEF_NR_TIMERS]
  . intro j _ _ _
    apply twoExpired_has

theorem timers_not_served : ¬∀ (r : TimerRun Unit Unit) (k n : Nat),
        Bits.has (r.state n).queue.timerMask k = true →
        (∀ j, n ≤ j → j < n + DEF_NR_TIMERS →
          Bits.has (r.call j).state.queue.timerMask k = true →
            Bits.has (r.state (j + 1)).queue.timerMask k = true) →
        ∃ j, n ≤ j ∧ j < n + DEF_NR_TIMERS ∧ Serves (r.state j) (r.call j) k := by
  intro h
  rcases h (twoExpiredRun (fun _ => none)) 3 0 (twoExpired_has _ _)
      (fun _ _ _ _ => twoExpired_has _ _)
    with ⟨j, _, _, timer, htimer, _⟩
  simp [twoExpiredRun, twoExpired, getTimer, DEF_NR_TIMERS] at htimer

end MiniGui
