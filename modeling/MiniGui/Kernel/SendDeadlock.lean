import MiniGui.Kernel.SyncList

namespace MiniGui

open Function List Option

open Chain

open Frame (pAdd sending)

variable {κ τ : Type}

def SyncOk (q : MsgQueue) : Prop :=
  q.pFirstSyncMsg ≠ none → q.has QS_SYNCMSG = true

variable {env : PeekEnv τ} {fresh m : Nat}

theorem SyncOk.effect {args : PeekArgs} {t : PeekState κ} {e : PeekExit κ}
    (h : SyncOk t.queue) (hb : env.build = .threads) (he : Effect env args t e)
    : SyncOk e.state.queue := by
  have hother : ∀ taken : MsgQueue, SyncOk taken → SyncOk (unlessPeeked args taken t.queue) := by
    intro taken htaken
    unfold unlessPeeked
    split
    . exact htaken
    . exact h
  have hclear : ∀ flag, flag ≠ QS_SYNCMSG → ∀ q : MsgQueue, SyncOk q → SyncOk (q.clearFlag flag) := by
    intro flag hflag q hq hne
    have hhas := hq hne
    rw [MsgQueue.has_clearFlag, hhas]
    simp [Ne.symm hflag]
  cases he with
  | quit pMsg hquit =>
    apply hother
    unfold takeQuit
    dsimp only
    split
    . apply hclear
      . decide
      . exact h
    . exact h
  | sync first hbuild hsync hfirst =>
    apply hother
    intro _
    exact hsync
  | notify phead next hnotify hmsgs | posted hpost hne | deskTimers pMsg hmask =>
    apply hother
    exact h
  | deskPaint pMsg hpaint =>
    apply hother
    apply hclear
    . decide
    . exact h
  | paint pMsg hpaint => exact h
  | deskTimer pMsg hlite hdesk =>
    rw [hb] at hlite
    simp at hlite
  | timerProc slot timer pMsg hslot htimer hproc => exact h
  | timer slot timer pMsg hslot htimer hproc => exact h
  | noTimer pMsg hnone => exact h
  | nothing pMsg => exact h

theorem SyncOk.peekSection {s : PeekState κ} (h : SyncOk s.queue)
    (hb : env.build = .threads) (args : PeekArgs) (pMsg : Msg)
    : SyncOk (peekSection env args pMsg s).state.queue := by
  rcases peekSection_does env args pMsg s with ⟨t, ⟨d, ht, hflags⟩, he⟩
  apply SyncOk.effect _ hb he
  rw [ht]
  intro hne
  rcases ne_none_iff_exists'.mp hne with ⟨first, hfirst⟩
  rw [← ht, hflags QS_SYNCMSG (matters_sync hfirst)]
  apply h hne

theorem throwAwayMessages_has (thrown : Hwnd → Bool) (q : MsgQueue) (heap : SyncHeap τ)
    (timerstr : TimerTable κ) (fuel flag : Nat)
    : (throwAwayMessages thrown q heap timerstr fuel).2.1.has flag = q.has flag := by
  unfold throwAwayMessages
  dsimp only
  generalize hq : (MsgQueue.mk _ _ _ _ _ _ _ _ _ _ _) = q'
  rcases throwAwayTimers_fields thrown timerstr (List.range DEF_NR_TIMERS) q' with ⟨_, heq⟩
  rw [heq, ← hq]
  rfl

theorem queueSyncMsg_cases (q : MsgQueue) (heap : SyncHeap τ) (syncMsg : Nat)
    : ((queueSyncMsg q heap syncMsg).1.pFirstSyncMsg = some syncMsg ∧ q.pFirstSyncMsg = none
          ∨ (queueSyncMsg q heap syncMsg).1.pFirstSyncMsg = q.pFirstSyncMsg)
        ∧ (queueSyncMsg q heap syncMsg).1.pLastSyncMsg = some syncMsg
        ∧ ((queueSyncMsg q heap syncMsg).2 = heap
          ∨ ∃ last, q.pLastSyncMsg = some last
              ∧ (queueSyncMsg q heap syncMsg).2
                  = update heap last { heap last with pNext := some syncMsg }) := by
  by_cases hfirst : q.pFirstSyncMsg = none
  . have hqueue := queueSyncMsg_first heap syncMsg hfirst
    exact ⟨.inl ⟨hqueue.1, hfirst⟩, hqueue.2.1, .inl hqueue.2.2⟩
  cases hlast : q.pLastSyncMsg with
  | some last =>
    have hqueue := queueSyncMsg_next heap syncMsg hfirst hlast
    exact ⟨.inr hqueue.1, hqueue.2.1, .inr ⟨last, rfl, hqueue.2.2⟩⟩
  | none =>
    rcases ne_none_iff_exists'.mp hfirst with ⟨first, hfirst⟩
    rw [queueSyncMsg, hfirst, hlast]
    exact ⟨.inr rfl, rfl, .inl rfl⟩

def LinksUp (heap : SyncHeap τ) (fresh : Nat) : Prop :=
  ∀ m n, m < fresh → nextOf heap m = some n → m < n ∧ n < fresh

theorem LinksUp.update {heap : SyncHeap τ} (h : LinksUp heap fresh)
    {r : SyncMsg τ} (hr : ∀ n, m < fresh → r.pNext = some n → m < n ∧ n < fresh)
    : LinksUp (update heap m r) fresh := by
  intro a n ha hn
  rw [nextOf_update] at hn
  by_cases ham : a = m
  . rw [ham, update_self] at hn
    rw [ham] at ha ⊢
    apply hr n ha hn
  . rw [update_of_ne ham] at hn
    apply h a n ha hn

theorem throwAwaySync_linksUp (thrown : Hwnd → Bool) (fuel : Nat) (s : ThrownSync τ)
    (cur prev : Option Nat) (h : LinksUp s.heap fresh) (hcur : ∀ c, cur = some c → c < fresh)
    (hprev : ∀ p, prev = some p → ∀ c, cur = some c → p < c)
    (hfirst : prev = none → cur = s.pFirstSyncMsg)
    (hbound : ∀ f, s.pFirstSyncMsg = some f → f < fresh)
    : LinksUp (throwAwaySync thrown fuel s cur prev).heap fresh
        ∧ ∀ f, (throwAwaySync thrown fuel s cur prev).pFirstSyncMsg = some f →
            ∃ first, s.pFirstSyncMsg = some first ∧ first ≤ f ∧ f < fresh := by
  induction fuel generalizing s cur prev with
  | zero => exact ⟨h, fun f hf => ⟨f, hf, le_rfl, hbound f hf⟩⟩
  | succ fuel ih =>
    cases cur with
    | none =>
      rw [throwAwaySync_none]
      exact ⟨h, fun f hf => ⟨f, hf, le_rfl, hbound f hf⟩⟩
    | some a =>
      have ha := hcur a rfl
      cases hthrown : thrown (s.heap a).msg.hwnd with
      | false =>
        rw [throwAwaySync_keep hthrown]
        apply ih s _ _ h
        . intro c hc
          exact (h a c ha hc).2
        . intro p hp c hc
          rw [← Option.some.inj hp]
          exact (h a c ha hc).1
        . simp
        . exact hbound
      | true =>
        have hcancel : LinksUp (cancelSync s.heap a) fresh := by
          intro m n
          rw [nextOf_cancelSync]
          apply h
        cases prev with
        | none =>
          rw [throwAwaySync_first hthrown, nextOf_cancelSync]
          have hstep := ih ⟨cancelSync s.heap a, nextOf s.heap a, s.posted ++ [a]⟩
            (nextOf s.heap a) none hcancel (fun c hc => (h a c ha hc).2) (by simp)
            (fun _ => rfl) (fun c hc => (h a c ha hc).2)
          refine ⟨hstep.1, ?_⟩
          intro f hf
          rcases hstep.2 f hf with ⟨first, hnext, hle, hlt⟩
          refine ⟨a, (hfirst rfl).symm, ?_, hlt⟩
          have := (h a first ha hnext).1
          omega
        | some k =>
          rw [throwAwaySync_unlink hthrown]
          have hka := hprev k rfl a rfl
          have hunlink : LinksUp (unlinkSync s.heap k a) fresh := by
            apply hcancel.update
            intro n hk hn
            have han := hcancel a n ha hn
            exact ⟨by omega, han.2⟩
          apply ih _ _ _ hunlink
          . intro c hc
            exact (hunlink a c ha hc).2
          . intro p hp c hc
            rw [← Option.some.inj hp]
            exact (hunlink a c ha hc).1
          . simp
          . exact hbound

namespace Threads

def Inside (f g : Frame) : Prop :=
  (∀ m phase, f = .sending m phase → g.pAdd = none) ∧ ∀ m phase, g = .sending m phase → phase = .drain

structure InOrder (s : Threads κ) : Prop where
  links : LinksUp s.heap s.fresh
  first : ∀ q m, (s.queues q).pFirstSyncMsg = some m → m < s.fresh
  last : ∀ q m, (s.queues q).pLastSyncMsg = some m → m < s.fresh
  sent : ∀ t m phase, .sending m phase ∈ s.frames t → m < s.fresh
  sync : ∀ q, SyncOk (s.queues q)
  inside : ∀ t, (s.frames t).Pairwise Inside
  newer : ∀ t m phase rest, s.frames t = .sending m phase :: rest → phase ≠ .drain →
    ∀ n, (s.queues t).pFirstSyncMsg = some n → m < n

def sendsNested (s : Threads κ) : Action κ → Bool
  | .send t _ _ => (s.frames t).any (fun f => f.pAdd.isSome)
  | _ => false

def ClearsEmpty (s : Threads κ) : Action κ → Prop
  | .store t => (s.queues t).pFirstSyncMsg = none
  | _ => True

theorem inOrder_init (heap : SyncHeap κ) (timerstr : TimerTable κ) (len : κ → Nat)
    : (init heap timerstr len).InOrder := by
  constructor
  . intro m n hm
    simp [init] at hm
  . intro q m hm
    simp [init, initMsgQueue] at hm
  . intro q m hm
    simp [init, initMsgQueue] at hm
  . intro t m phase hm
    simp [init] at hm
  . intro q hne
    exact absurd rfl hne
  . intro t
    exact List.Pairwise.nil
  . intro t m phase rest hframes
    simp [init] at hframes

theorem InOrder.congr {s s' : Threads κ} (h : s.InOrder) (hlinks : LinksUp s'.heap s'.fresh)
    (hfresh : s.fresh = s'.fresh) (hqueues : s'.queues = s.queues) (hframes : s'.frames = s.frames)
    : s'.InOrder := by
  rcases h with ⟨_, hfirst, hlast, hsent, hsync, hinside, hnewer⟩
  rw [hfresh, ← hqueues] at hfirst hlast
  rw [hfresh, ← hframes] at hsent
  rw [← hqueues] at hsync hnewer
  rw [← hframes] at hinside hnewer
  exact ⟨hlinks, hfirst, hlast, hsent, hsync, hinside, hnewer⟩

variable [DecidableEq κ] {s : Threads κ} {t q : κ} {rest : List Frame} {queue : MsgQueue} {a : Action κ}

theorem InOrder.setFrames (h : s.InOrder) {frames : List Frame}
    (hsent : ∀ m phase, .sending m phase ∈ frames → m < s.fresh) (hinside : frames.Pairwise Inside)
    (hnewer : ∀ m phase rest, frames = .sending m phase :: rest → phase ≠ .drain →
      ∀ n, (s.queues t).pFirstSyncMsg = some n → m < n)
    : (s.setFrames t frames).InOrder := by
  constructor
  . exact h.links
  . exact h.first
  . exact h.last
  . intro u
    rw [setFrames_frames]
    by_cases hu : u = t
    . rw [hu, update_self]
      exact hsent
    . rw [update_of_ne hu]
      exact h.sent u
  . exact h.sync
  . intro u
    rw [setFrames_frames]
    by_cases hu : u = t
    . rw [hu, update_self]
      exact hinside
    . rw [update_of_ne hu]
      exact h.inside u
  intro u
  rw [setFrames_frames]
  by_cases hu : u = t
  . rw [hu, update_self]
    exact hnewer
  . rw [update_of_ne hu]
    exact h.newer u

theorem InOrder.pop (h : s.InOrder) {f : Frame} (hframes : s.frames t = f :: rest)
    : (s.setFrames t rest).InOrder := by
  have hinside := h.inside t
  rw [hframes, pairwise_cons] at hinside
  apply h.setFrames
  . intro m phase hm
    apply h.sent t m phase
    rw [hframes]
    exact mem_cons_of_mem f hm
  . exact hinside.2
  . intro m phase rest' hrest hphase
    have hf := hinside.1 (.sending m phase) (by simp [hrest])
    exact absurd (hf.2 m phase rfl) hphase

theorem InOrder.swap (h : s.InOrder) {f g : Frame} (hframes : s.frames t = f :: rest)
    (hg : ∀ m phase, g = .sending m phase → ∃ phase', f = .sending m phase')
    (hnewer : ∀ m phase, g = .sending m phase → phase ≠ .drain →
      ∀ n, (s.queues t).pFirstSyncMsg = some n → m < n)
    : (s.setFrames t (g :: rest)).InOrder := by
  have hinside := h.inside t
  rw [hframes, pairwise_cons] at hinside
  apply h.setFrames
  . intro m phase hm
    rcases mem_cons.mp hm with heq | hmem
    . rcases hg m phase heq.symm with ⟨phase', hf⟩
      apply h.sent t m phase'
      rw [hframes, hf]
      apply mem_cons_self
    . apply h.sent t m phase
      rw [hframes]
      exact mem_cons_of_mem f hmem
  . rw [pairwise_cons]
    refine ⟨?_, hinside.2⟩
    intro x hx
    refine ⟨?_, (hinside.1 x hx).2⟩
    intro m phase hm
    rcases hg m phase hm with ⟨phase', hf⟩
    exact (hinside.1 x hx).1 m phase' hf
  . intro m phase rest' hrest
    rw [List.cons.injEq] at hrest
    apply hnewer m phase hrest.1

theorem InOrder.push (h : s.InOrder)
    (hdrain : ∀ m phase, .sending m phase ∈ s.frames t → phase = .drain) (msg : Msg)
    : (s.setFrames t (.dispatching msg :: s.frames t)).InOrder := by
  apply h.setFrames
  . intro m phase hm
    apply h.sent t m phase
    simpa using hm
  . rw [pairwise_cons]
    refine ⟨?_, h.inside t⟩
    intro x hx
    refine ⟨by simp, ?_⟩
    intro m phase hm
    rw [hm] at hx
    exact hdrain m phase hx
  . simp

omit [DecidableEq κ] in
theorem InOrder.drained (h : s.InOrder)
    (htop : ∀ m phase rest, s.frames t = .sending m phase :: rest → phase = .drain)
    : ∀ m phase, .sending m phase ∈ s.frames t → phase = .drain := by
  intro m phase hm
  have hinside := h.inside t
  cases hframes : s.frames t with
  | nil =>
    rw [hframes] at hm
    simp at hm
  | cons f rest =>
    rw [hframes] at hm hinside
    rw [pairwise_cons] at hinside
    rcases mem_cons.mp hm with heq | hmem
    . apply htop m phase rest
      rw [hframes, heq]
    . exact (hinside.1 _ hmem).2 m phase rfl

omit [DecidableEq κ] in
theorem inProgram_top (h : s.inProgram t = true) (m : Nat) (phase : Phase) (rest : List Frame)
    : s.frames t ≠ .sending m phase :: rest := by
  intro hframes
  rw [inProgram, hframes] at h
  simp at h

section

variable (h : s.InOrder)
include h

theorem InOrder.setQueue (hfirst : ∀ m, queue.pFirstSyncMsg = some m →
      ∃ first, (s.queues q).pFirstSyncMsg = some first ∧ first ≤ m ∧ m < s.fresh)
    (hlast : queue.pLastSyncMsg = (s.queues q).pLastSyncMsg) (hsync : SyncOk queue)
    : (s.setQueue q queue).InOrder := by
  constructor
  . exact h.links
  . intro q' m
    rw [setQueue_queues]
    by_cases hq : q' = q
    . rw [hq, update_self]
      intro hm
      rcases hfirst m hm with ⟨first, _, _, hfresh⟩
      exact hfresh
    . rw [update_of_ne hq]
      apply h.first
  . intro q' m
    rw [setQueue_queues]
    by_cases hq : q' = q
    . rw [hq, update_self, hlast]
      apply h.last
    . rw [update_of_ne hq]
      apply h.last
  . exact h.sent
  . intro q'
    rw [setQueue_queues]
    by_cases hq : q' = q
    . rw [hq, update_self]
      exact hsync
    . rw [update_of_ne hq]
      apply h.sync
  . exact h.inside
  intro u m phase rest hframes hphase n
  rw [setQueue_queues]
  by_cases hu : u = q
  . rw [hu, update_self]
    rw [hu] at hframes
    intro hn
    rcases hfirst n hn with ⟨first, hold, hle, _⟩
    have := h.newer q m phase rest hframes hphase first hold
    omega
  . rw [update_of_ne hu]
    apply h.newer u m phase rest hframes hphase

theorem InOrder.setQueue_same (hfirst : queue.pFirstSyncMsg = (s.queues q).pFirstSyncMsg)
    (hlast : queue.pLastSyncMsg = (s.queues q).pLastSyncMsg) (hsync : SyncOk queue)
    : (s.setQueue q queue).InOrder := by
  refine h.setQueue ?_ hlast hsync
  intro m hm
  rw [hfirst] at hm
  exact ⟨m, hm, le_rfl, h.first q m hm⟩

theorem inOrder_taken {first : Nat}
    (hdrain : ∀ m phase, .sending m phase ∈ s.frames t → phase = .drain)
    (hfirst : (s.queues t).pFirstSyncMsg = some first)
    (hnext : queue.pFirstSyncMsg = (s.heap first).pNext)
    (hlast : queue.pLastSyncMsg = (s.queues t).pLastSyncMsg) (hsync : SyncOk queue)
    : (s.taken t first queue).InOrder := by
  have hqueue : (s.setQueue t queue).InOrder := by
    refine h.setQueue ?_ hlast hsync
    intro m hm
    rw [hnext] at hm
    have hlink := h.links first m (h.first t first hfirst) hm
    exact ⟨first, hfirst, hlink.1.le, hlink.2⟩
  have hpush := hqueue.push hdrain { (s.heap first).msg with pAdd := some first }
  exact hpush.congr hpush.links rfl rfl rfl

theorem inOrder_sent (q : κ) (msg : Msg)
    (hprog : s.inProgram t = true) (hnested : ∀ f ∈ s.frames t, f.pAdd = none)
    : (s.sent t q msg).InOrder := by
  let syncMsg : SyncMsg κ := { msg, retval := ERR_MSG_CANCELED, semHandle := t, pNext := none }
  have hqueue := queueSyncMsg_cases (s.queues q) (update s.heap s.fresh syncMsg) s.fresh
  have hlinks : LinksUp (update s.heap s.fresh syncMsg) (s.fresh + 1) := by
    intro m n hm hn
    rw [nextOf_update] at hn
    by_cases heq : m = s.fresh
    . rw [heq, update_self] at hn
      simp [syncMsg] at hn
    . rw [update_of_ne heq] at hn
      have := h.links m n (by omega) hn
      exact ⟨this.1, by omega⟩
  have hqueues : (s.sent t q msg).queues = update s.queues q
      (queueSyncMsg (s.queues q) (update s.heap s.fresh syncMsg) s.fresh).1 := rfl
  have hframes : (s.sent t q msg).frames
      = update s.frames t (.sending s.fresh .drain :: s.frames t) := rfl
  have hdrain := h.drained (fun m phase rest hf => absurd hf (inProgram_top hprog m phase rest))
  constructor
  . change LinksUp (queueSyncMsg (s.queues q) (update s.heap s.fresh syncMsg) s.fresh).2 _
    rcases hqueue.2.2 with hsame | ⟨last, hlast, hupdate⟩
    . rw [hsame]
      exact hlinks
    rw [hupdate]
    apply hlinks.update
    intro n _ hn
    have := h.last q last hlast
    rw [Option.some.injEq] at hn
    rw [← hn]
    exact ⟨this, Nat.lt_succ_self _⟩
  . intro q' m
    change _ → m < s.fresh + 1
    rw [hqueues]
    by_cases hq : q' = q
    . rw [hq, update_self]
      rcases hqueue.1 with ⟨hfirst, _⟩ | hfirst
      . rw [hfirst, Option.some.injEq]
        omega
      rw [hfirst]
      intro hm
      have := h.first q m hm
      omega
    . rw [update_of_ne hq]
      intro hm
      have := h.first q' m hm
      omega
  . intro q' m
    change _ → m < s.fresh + 1
    rw [hqueues]
    by_cases hq : q' = q
    . rw [hq, update_self, hqueue.2.1, Option.some.injEq]
      omega
    rw [update_of_ne hq]
    intro hm
    have := h.last q' m hm
    omega
  . intro u m phase
    change _ → m < s.fresh + 1
    rw [hframes]
    by_cases hu : u = t
    . rw [hu, update_self, mem_cons, sending.injEq]
      rintro (hm | hm)
      . omega
      . have := h.sent t m phase hm
        omega
    rw [update_of_ne hu]
    intro hm
    have := h.sent u m phase hm
    omega
  . intro q'
    rw [hqueues]
    by_cases hq : q' = q
    . rw [hq, update_self]
      intro _
      unfold queueSyncMsg
      split <;> simp [QS_SYNCMSG]
    . rw [update_of_ne hq]
      exact h.sync q'
  . intro u
    rw [hframes]
    by_cases hu : u = t
    . rw [hu, update_self, pairwise_cons]
      refine ⟨?_, h.inside t⟩
      intro x hx
      refine ⟨fun _ _ _ => hnested x hx, ?_⟩
      intro m phase hm
      rw [hm] at hx
      exact hdrain m phase hx
    . rw [update_of_ne hu]
      exact h.inside u
  intro u m phase rest hu hphase n
  rw [hframes] at hu
  rw [hqueues]
  have hut : u ≠ t := by
    intro heq
    rw [heq, update_self, List.cons.injEq, sending.injEq] at hu
    exact hphase hu.1.2.symm
  rw [update_of_ne hut] at hu
  by_cases hq : u = q
  . rw [hq, update_self]
    rcases hqueue.1 with ⟨hfirst, _⟩ | hfirst
    . rw [hfirst, Option.some.injEq]
      intro hn
      have := h.sent u m phase (by simp [hu])
      omega
    . rw [hfirst, ← hq]
      exact h.newer u m phase rest hu hphase n
  . rw [update_of_ne hq]
    exact h.newer u m phase rest hu hphase n

theorem inOrder_thrownAway (q : κ) (thrown : Hwnd → Bool) : (s.thrownAway q thrown).InOrder := by
  have hsync := throwAwaySync_linksUp thrown s.fresh ⟨s.heap, (s.queues q).pFirstSyncMsg, []⟩
    (s.queues q).pFirstSyncMsg none h.links (h.first q) (by simp) (fun _ => rfl) (h.first q)
  rw [← throwAwayMessages_sync thrown (s.queues q) s.heap s.timerstr] at hsync
  have hqueue : (s.setQueue q
      (throwAwayMessages thrown (s.queues q) s.heap s.timerstr s.fresh).2.1).InOrder := by
    apply h.setQueue
    . rw [throwAwayMessages_first]
      exact hsync.2
    . rw [throwAwayMessages_last]
    intro hne
    rw [throwAwayMessages_has]
    apply h.sync q
    rcases ne_none_iff_exists'.mp hne with ⟨f, hf⟩
    rw [throwAwayMessages_first] at hf
    rcases hsync.2 f hf with ⟨first, hfirst, _⟩
    exact ne_none_iff_exists'.mpr ⟨first, hfirst⟩
  apply hqueue.congr
  . rw [thrownAway_heap, thrownAway_fresh]
    exact hsync.1
  . rw [thrownAway_fresh]
    rfl
  . rw [thrownAway_queues]
    rfl
  . rw [thrownAway_frames]
    rfl

theorem InOrder.answer (pAdd : Option Nat) (iRet : Int) (e : Life κ)
    : (s.answer pAdd iRet e).InOrder := by
  apply h.congr
  . intro m n
    rw [nextOf_answer, answer_fresh]
    apply h.links
  . rw [answer_fresh]
  . rw [answer_queues]
  . rw [answer_frames]

end

omit [DecidableEq κ] in
theorem InOrder.note (h : s.InOrder) (pAdd : Option Nat) (e : Life κ)
    : (s.note pAdd e).InOrder := by
  apply h.congr
  . rw [note_heap, note_fresh]
    exact h.links
  . rw [note_fresh]
  . rw [note_queues]
  . rw [note_frames]

omit [DecidableEq κ] in
theorem QueueSection.has {f : MsgQueue → MsgQueue}
    (h : QueueSection a q f) (hhas : queue.has QS_SYNCMSG = true)
    : (f queue).has QS_SYNCMSG = true := by
  have hset : ∀ (q' : MsgQueue) (flag : Nat), q'.dwState = queue.dwState →
      (q'.setFlag flag).has QS_SYNCMSG = true := by
    intro q' flag hstate
    apply has_setFlag_of_has
    rw [MsgQueue.has, hstate]
    exact hhas
  have hqueue : ∀ msg, (queueMessage queue msg).2.has QS_SYNCMSG = true := by
    intro msg
    unfold queueMessage
    split
    . exact hset _ _ rfl
    . split
      . exact hhas
      . exact hset _ _ rfl
  cases h with
  | sendNotify msg => exact hset _ _ rfl
  | post msg =>
    unfold postMessage
    split
    . exact hset _ _ rfl
    . apply hqueue
  | queue msg => apply hqueue
  | peekPost =>
    dsimp only
    unfold peekPostMessage
    split
    . split
      . dsimp only
        split
        . dsimp only
          split
          . exact hhas
          . exact hhas
        . exact hhas
      . exact hhas
    . exact hhas

theorem inOrder_step {s s' : Threads κ} (h : s.InOrder)
    (hnested : s.sendsNested a = false) (hclears : s.ClearsEmpty a) (hs : step s a s')
    : s'.InOrder := by
  cases steps_of_exec hs with
  | send t q msg hprog hvalid =>
    apply inOrder_sent h q msg hprog
    simpa [sendsNested] using hnested
  | drainTakes t syncMsg rest first hframes hflag hfirst =>
    refine inOrder_taken h ?_ hfirst rfl rfl (fun _ => hflag)
    apply h.drained
    intro m phase rest' hframes'
    rw [hframes, List.cons.injEq, sending.injEq] at hframes'
    exact hframes'.1.2.symm
  | drainLeaves t syncMsg rest phase hframes hphase =>
    apply h.swap hframes
    . intro m phase' hm
      rw [sending.injEq] at hm
      exact ⟨.drain, by rw [hm.1]⟩
    intro m phase' hm _ n hn
    -- The thread leaves the loop as it finds no sync message, by its list or by the flag.
    have hnone : (s.queues t).pFirstSyncMsg = none := by
      rcases hphase with ⟨_, hnone⟩ | ⟨_, hflag⟩
      . exact hnone
      by_contra hne
      have := h.sync t hne
      rw [hflag] at this
      simp at this
    rw [hnone] at hn
    simp at hn
  | load t syncMsg rest hframes =>
    apply h.swap hframes
    . intro m phase' hm
      rw [sending.injEq] at hm
      exact ⟨.leaving, by rw [hm.1]⟩
    intro m phase' hm _ n hn
    rw [sending.injEq] at hm
    rw [← hm.1]
    exact h.newer t syncMsg .leaving rest hframes (by simp) n hn
  | store t syncMsg dwState rest hframes =>
    have hqueue : (s.setQueue t
        { s.queues t with dwState := Bits.clear dwState QS_SYNCMSG }).InOrder := by
      refine h.setQueue_same rfl rfl ?_
      intro hne
      exact absurd hclears hne
    apply hqueue.swap hframes
    . intro m phase' hm
      rw [sending.injEq] at hm
      exact ⟨.loaded dwState, by rw [hm.1]⟩
    intro m phase' hm _ n hn
    rw [sending.injEq] at hm
    rw [← hm.1]
    exact hqueue.newer t syncMsg (.loaded dwState) rest hframes (by simp) n hn
  | wake t syncMsg rest hframes hsem =>
    have hpop := h.pop hframes
    exact hpop.congr hpop.links rfl rfl rfl
  | peekTakes t env args pMsg first queue hprog hfirst hnext hlast hqueue =>
    apply inOrder_taken h _ hfirst hnext hlast
    . rw [hqueue]
      exact SyncOk.peekSection (s := ⟨s.queues t, s.timerstr⟩) (h.sync t) rfl args pMsg
    . exact h.drained (fun m phase rest hf => absurd hf (inProgram_top hprog m phase rest))
  | peekOther t env args pMsg msg hprog hfirst hlast hpAdd =>
    have hsync : SyncOk (s.peekExit t env args pMsg).state.queue :=
      SyncOk.peekSection (s := ⟨s.queues t, s.timerstr⟩) (h.sync t) rfl args pMsg
    have hqueue := h.setQueue_same hfirst hlast hsync
    cases msg with
    | none => exact hqueue.congr hqueue.links rfl rfl rfl
    | some msg =>
      have hpush := hqueue.push
        (h.drained (fun m phase rest hf => absurd hf (inProgram_top hprog m phase rest))) msg
      exact hpush.congr hpush.links rfl rfl rfl
  | cancels t wndProc msg rest hframes hinvalid | procReturns t iRet msg rest hframes =>
    apply InOrder.answer
    apply h.pop hframes
  | ignores t wndProc msg rest hframes => exact h.pop hframes
  | calls t wndProc msg rest hframes hvalid =>
    apply InOrder.note
    apply h.swap hframes
    . simp
    . simp
  | queueSection a q f hsection =>
    have hsame := hsection.sync (s.queues q)
    apply h.setQueue_same hsame.1 hsame.2
    intro hne
    apply hsection.has
    apply h.sync q
    rw [← hsame.1]
    exact hne
  | throwAway q mainWindowPtrOfControl hWnd hvalid => exact inOrder_thrownAway h q _
  | timers timerstr timerMask =>
    exact ⟨h.links, h.first, h.last, h.sent, h.sync, h.inside, h.newer⟩

def PendsAt (s : Threads κ) (m : Nat) (u : κ) : Prop :=
  (∃ l, Linked (nextOf s.heap) (s.queues u).pFirstSyncMsg l ∧ m ∈ l)
    ∨ ∃ f ∈ s.frames u, f.pAdd = some m

def Blocked (s : Threads κ) (t : κ) (m : Nat) : Prop :=
  (∃ rest, s.frames t = .sending m .waiting :: rest) ∧ s.syncSem t = 0
    ∧ .canceled ∉ s.history m ∧ ∀ iRet, .answered iRet ∉ s.history m

def Deadlocked (s : Threads κ) (threads : Set κ) : Prop :=
  threads.Nonempty ∧ ∀ t ∈ threads, ∃ m, s.Blocked t m ∧ ∃ u ∈ threads, u ≠ t ∧ s.PendsAt m u

omit [DecidableEq κ] in
theorem InOrder.pending_newer (h : s.InOrder) {u : κ} {n : Nat}
    (hu : s.Blocked u n) (hm : s.PendsAt m u) : n < m := by
  rcases hu.1 with ⟨rest, hframes⟩
  rcases hm with ⟨l, hl, hml⟩ | ⟨f, hf, hpAdd⟩
  . cases hfirst : (s.queues u).pFirstSyncMsg with
    | none =>
      rw [hfirst] at hl
      rw [hl.eq_nil_iff.mpr rfl] at hml
      simp at hml
    | some first =>
      rw [hfirst] at hl
      have hnewer := h.newer u n .waiting rest hframes (by simp) first hfirst
      have hle := hl.le_of_mem (P := fun a => a < s.fresh) (h.first u first hfirst)
        (fun a b ha hb => h.links a b ha hb) m hml
      omega
  -- Nothing is nested inside the handling of a sync message.
  have hinside := h.inside u
  rw [hframes, pairwise_cons] at hinside
  rw [hframes] at hf
  rcases mem_cons.mp hf with heq | hmem
  . rw [heq] at hpAdd
    simp [pAdd] at hpAdd
  . rw [(hinside.1 f hmem).1 n .waiting rfl] at hpAdd
    simp at hpAdd

omit [DecidableEq κ] in
theorem InOrder.not_deadlocked (h : s.InOrder) (threads : Set κ) : ¬s.Deadlocked threads := by
  rintro ⟨⟨t, ht⟩, hall⟩
  -- Consider the oldest message that a thread of the set waits for.
  have hne : ∃ m, ∃ t ∈ threads, s.Blocked t m := by
    rcases hall t ht with ⟨m, hm, _⟩
    exact ⟨m, t, ht, hm⟩
  classical
  rcases Nat.find_spec hne with ⟨t', ht', hblocked⟩
  rcases hall t' ht' with ⟨m, hm, u, hu, _, hpends⟩
  have heq : m = Nat.find hne := by
    rcases hm.1 with ⟨rest, hframes⟩
    rcases hblocked.1 with ⟨rest', hframes'⟩
    rw [hframes', List.cons.injEq, sending.injEq] at hframes
    exact hframes.1.1.symm
  rcases hall u hu with ⟨n, hn, _⟩
  have hlt := h.pending_newer hn hpends
  have hle := Nat.find_min' hne ⟨u, hu, hn⟩
  omega

open Reach

/--
In the runs without nested sends whose steps meet the condition, no threads are ever deadlocked.
-/
theorem no_send_deadlock (heap : SyncHeap κ) (timerstr : TimerTable κ) (len : κ → Nat)
    (s : Threads κ) (hs : Reachable step (fun s a => s.sendsNested a = false ∧ s.ClearsEmpty a)
      (init heap timerstr len) s)
    : ∀ threads, ¬s.Deadlocked threads := by
  have hinv : s.InOrder := by
    apply hs.invariant
    . apply inOrder_init
    . intro t a t' ht hok hstep
      exact inOrder_step ht hok.1 hok.2 hstep
  exact hinv.not_deadlocked

def execFlat (s : Threads κ) (a : Action κ) : Option (Threads κ) :=
  if s.sendsNested a then none else s.exec a

theorem execFlat_step {s s' : Threads κ} (h : s.execFlat a = some s')
    : s.sendsNested a = false ∧ step s a s' := by
  unfold execFlat at h
  split at h
  . simp at h
  . next hflat =>
    rw [Bool.not_eq_true] at hflat
    exact ⟨hflat, h⟩

local instance neZero_three : NeZero 3 := ⟨by decide⟩

def mutualSend : List (Action (Fin 3)) :=
  [.send 0 1 { Msg.zero with hwnd := 6 }, .send 1 0 { Msg.zero with hwnd := 5 }, .drain 0]

theorem no_send_deadlock_mutual : ∃ s, mutualSend.foldlM execFlat start = some s
        ∧ s.frames 1 = [.sending 1 .drain] ∧ ∀ threads, ¬s.Deadlocked threads := by
  have hrun : (mutualSend.foldlM execFlat start).map (fun s => s.frames 1)
      = some [.sending 1 .drain] := by
    decide
  rw [map_eq_some_iff] at hrun
  rcases hrun with ⟨s, hs, hframes⟩
  have hreach : Reachable step (fun s a => s.sendsNested a = false ∧ s.ClearsEmpty a) start s := by
    apply Reachable.foldlM mutualSend _ hs
    intro a ha t t' hexec
    refine ⟨⟨(execFlat_step hexec).1, ?_⟩, (execFlat_step hexec).2⟩
    simp only [mutualSend, mem_cons, not_mem_nil, or_false] at ha
    rcases ha with rfl | rfl | rfl <;> trivial
  exact ⟨s, hs, hframes, no_send_deadlock _ _ _ s hreach⟩

def noWindows : PeekEnv (Fin 3) :=
  {
    build := .threads
    isMainWindow := fun _ => false
    captureWnd := 0
    clientOrigins := fun _ => none
    hostingRoot := .mk (.mk 0 false []) []
    invRgn := fun _ => 0
    syncMsg := start.heap
  }

def waitForEachOther : List (Action (Fin 3)) :=
  lateSend
    ++ [
      .drain 1,
      .peek 2 noWindows ⟨HWND_DESKTOP, 0, 0, PM_REMOVE⟩ Msg.zero,
      .dispatch 2 (fun _ => true),
      .procReturns 2 7,
      .wake 0,
      .send 0 1 { Msg.zero with hwnd := 6 },
      .drain 0
    ]

set_option synthInstance.maxSize 512 in
theorem wait_for_each_other : ¬∀ s, Reachable step (fun s a => s.sendsNested a = false) start s →
        ∀ threads, ¬s.Deadlocked threads := by
  intro h
  have hrun : (waitForEachOther.foldlM execFlat start).map
      (fun s => [(0, 2), (1, 3)].map (fun (t, m) =>
        (s.frames t, s.syncSem t, s.history m, (s.queues t).pFirstSyncMsg, nextOf s.heap m)))
      = some
          [
            ([.sending 3 .waiting], 0, [.queued 0], some 2, none),
            ([.sending 2 .waiting], 0, [.queued 1], some 3, none)
          ] := by
    decide
  rw [map_eq_some_iff] at hrun
  rcases hrun with ⟨s, hs, hstate⟩
  simp only [map_cons, map_nil, List.cons.injEq, Prod.mk.injEq, and_true] at hstate
  rcases hstate with ⟨⟨hframes0, hsem0, hhistory2, hfirst0, hnext2⟩,
    hframes1, hsem1, hhistory3, hfirst1, hnext3⟩
  have hreach : Reachable step (fun s a => s.sendsNested a = false) start s := by
    apply Reachable.foldlM waitForEachOther _ hs
    intro a _ t t' hexec
    exact execFlat_step hexec
  apply h s hreach {0, 1}
  refine ⟨⟨0, by simp⟩, ?_⟩
  intro t ht
  rcases ht with rfl | rfl
  . refine ⟨3, ⟨⟨[], hframes0⟩, hsem0, ?_, ?_⟩, 1, by simp, by decide, Or.inl ⟨[3], ?_, by simp⟩⟩
    . simp [hhistory3]
    . simp [hhistory3]
    . rw [hfirst1]
      exact ⟨rfl, hnext3⟩
  refine ⟨2, ⟨⟨[], hframes1⟩, hsem1, ?_, ?_⟩, 0, by simp, by decide, Or.inl ⟨[2], ?_, by simp⟩⟩
  . simp [hhistory2]
  . simp [hhistory2]
  . rw [hfirst0]
    exact ⟨rfl, hnext2⟩

end Threads

end MiniGui
