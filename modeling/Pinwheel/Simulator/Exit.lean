import Pinwheel.Simulator.Exclusive

/-!
# Requests to exit

`stop` sets its request and notifies without the mutex.  A thread that has found no
request in the predicate of its wait, and has yet to block, hears nothing of either: it
then waits for a notification that was already given.
-/

namespace Pinwheel

namespace SimThread

open Transitions State

/-- The thread waits for a notification, and the client, which has given it, waits for the
thread. -/
structure Lost (s : State) : Prop where
  blocked : s.thread = .blocked
  requested : s.reqExit = true
  joining : s.client = .joining

/-- The thread has found no request to exit, and has yet to block. -/
def ThreadPc.deaf : ThreadPc → Bool
  | .waitPause | .waitBusy | .block => true
  | _ => false

/-- The step is not the notification of `stop` to a thread that does not hear it. -/
def Heard (a : Action) (s : State) : Prop :=
  ∀ call, a = .client call → s.client = .stopNotify → s.thread.deaf = false

/-- Who waits is woken by a notification only. -/
def Notified (a : Action) (_ : State) : Prop := a ≠ .wakeThread ∧ a ≠ .wakeClient

/-! ## Heard requests -/

/-- The client has requested an exit. -/
def ClientPc.exits : ClientPc → Bool
  | .stopNotify | .joining => true
  | _ => false

/-- The request is set before it is notified of, and it stays. -/
def Requested (s : State) : Prop := s.client.exits = true → s.reqExit = true

/-- A thread that was notified does not block again. -/
def Awake (s : State) : Prop :=
  s.client = .joining → s.thread.deaf = false ∧ s.thread ≠ .blocked

variable {s s' : State} {busy : Bool} {call : Call}

theorem requested_of_not_exits (h : s.client.exits = false) : Requested s :=
  fun he ↦ absurd (h.symm.trans he) Bool.false_ne_true

theorem awake_of_not_exits (h : s.client.exits = false) : Awake s := by
  intro hj
  rw [hj] at h
  contradiction

/-- A notification moves a client that waits in `pause`, and no other. -/
theorem client_notify (s : State) : s.notify.client = s.client ∨
    s.client = .pauseBlocked ∧ s.notify.client = .pauseWoken := by
  by_cases hb : s.client = .pauseBlocked
  · exact .inr ⟨hb, if_pos hb⟩
  · exact .inl (if_neg hb)

theorem acquire_eq_some {p : Party} (h : acquire p s = some s') : s' = { s with owner := some p } :=
  (Option.some.inj (Option.ite_none_right_eq_some.mp h).2).symm

/-- What the thread does neither answers nor withdraws a request to exit. -/
theorem threadStep_frame (hs : threadStep busy s = some s') :
    s'.reqExit = s.reqExit ∧
      (s'.client = s.client ∨ s.client = .pauseBlocked ∧ s'.client = .pauseWoken) := by
  unfold threadStep at hs
  cases hpc : s.thread <;> rw [hpc] at hs
  case unborn | blocked | exited => contradiction
  case lock | woken =>
    obtain ⟨t, ht, rfl⟩ := Option.map_eq_some_iff.mp hs
    rw [acquire_eq_some ht]
    exact ⟨rfl, .inl rfl⟩
  all_goals obtain rfl := Option.some.inj hs
  case notifyAck | notifyClear | notifyExit => exact ⟨rfl, client_notify s⟩
  all_goals exact ⟨rfl, .inl rfl⟩

/-- A thread that is asked to exit does not go to its wait again. -/
theorem threadStep_awake (hs : threadStep busy s = some s') (hexit : s.reqExit = true)
    (hdeaf : s.thread.deaf = false) : s'.thread.deaf = false ∧ s'.thread ≠ .blocked := by
  unfold threadStep at hs
  cases hpc : s.thread <;> rw [hpc] at hs hdeaf
  case unborn | blocked | exited | waitPause | waitBusy | block => contradiction
  case lock | woken =>
    obtain ⟨t, ht, rfl⟩ := Option.map_eq_some_iff.mp hs
    exact ⟨rfl, nofun⟩
  all_goals obtain rfl := Option.some.inj hs
  case waitExit =>
    rw [if_pos hexit]
    exact ⟨rfl, nofun⟩
  case testPause | testBusy | testExit | busy | loopBusy | loopFlags =>
    split_ifs <;> exact ⟨rfl, nofun⟩
  all_goals exact ⟨rfl, nofun⟩

/-- Only `stop` gets the client to where it has requested an exit. -/
theorem clientStep_cases (hs : clientStep call s = some s') :
    s'.client.exits = false ∨ s' = { s with reqExit := true }.goClient .stopNotify ∨
      s.client = .stopNotify ∧ s' = s.notify.goClient .joining := by
  unfold clientStep at hs
  cases hpc : s.client <;> rw [hpc] at hs
  case idle =>
    refine .inl ?_
    unfold callStep at hs
    cases call <;> dsimp only at hs <;> split_ifs at hs <;> obtain rfl := Option.some.inj hs
    all_goals first
      | rfl
      | rw [hpc]; rfl
  case pauseBlocked => contradiction
  case pauseLock | pauseWoken =>
    obtain ⟨t, ht, rfl⟩ := Option.map_eq_some_iff.mp hs
    exact .inl rfl
  case joining =>
    obtain ⟨-, hsome⟩ := Option.ite_none_right_eq_some.mp hs
    obtain rfl := Option.some.inj hsome
    exact .inl rfl
  all_goals obtain rfl := Option.some.inj hs
  case stopSet => exact .inr (.inl rfl)
  case stopNotify => exact .inr (.inr ⟨rfl, rfl⟩)
  case pauseTest => exact .inl (by split_ifs <;> rfl)
  all_goals exact .inl rfl

theorem requested_step {a : Action} (h : Requested s) (hs : step a s = some s') :
    Requested s' := by
  cases a with
  | thread busy =>
    obtain ⟨hexit, hclient | ⟨-, hclient⟩⟩ := threadStep_frame hs
    · rw [Requested, hexit, hclient]
      exact h
    · exact requested_of_not_exits (by rw [hclient]; rfl)
  | client call =>
    rcases clientStep_cases hs with hno | rfl | ⟨hpc, rfl⟩
    · exact requested_of_not_exits hno
    · exact fun _ ↦ rfl
    · exact fun _ ↦ h (by rw [hpc]; rfl)
  | wakeThread =>
    obtain ⟨-, hsome⟩ := Option.ite_none_right_eq_some.mp hs
    obtain rfl := Option.some.inj hsome
    exact h
  | wakeClient =>
    obtain ⟨-, hsome⟩ := Option.ite_none_right_eq_some.mp hs
    obtain rfl := Option.some.inj hsome
    exact requested_of_not_exits rfl

/-- The notification of `stop` finds the thread blocked, or on its way to where it hears. -/
theorem awake_step {a : Action} (hreq : Requested s) (h : Awake s) (ha : Heard a s)
    (hs : step a s = some s') : Awake s' := by
  cases a with
  | thread busy =>
    obtain ⟨-, hclient | ⟨-, hclient⟩⟩ := threadStep_frame hs
    · intro hj
      rw [hclient] at hj
      exact threadStep_awake hs (hreq (by rw [hj]; rfl)) (h hj).1
    · exact awake_of_not_exits (by rw [hclient]; rfl)
  | client call =>
    rcases clientStep_cases hs with hno | rfl | ⟨hpc, rfl⟩
    · exact awake_of_not_exits hno
    · exact nofun
    · intro _
      have hdeaf := ha call rfl hpc
      have hthread : (s.notify.goClient .joining).thread =
          if s.thread = .blocked then .woken else s.thread := rfl
      rw [hthread]
      split_ifs with hb
      · exact ⟨rfl, nofun⟩
      · exact ⟨hdeaf, hb⟩
  | wakeThread =>
    obtain ⟨hpc, hsome⟩ := Option.ite_none_right_eq_some.mp hs
    obtain rfl := Option.some.inj hsome
    exact fun _ ↦ ⟨rfl, nofun⟩
  | wakeClient =>
    obtain ⟨-, hsome⟩ := Option.ite_none_right_eq_some.mp hs
    obtain rfl := Option.some.inj hsome
    exact nofun

/-! ## Requests that are not heard -/

/-- The thread blocks, with the notification behind it. -/
theorem lost_of_block (hpc : s.thread = .block) (hexit : s.reqExit = true)
    (hclient : s.client = .joining) : ∃ s', Reaches step Notified s s' ∧ Lost s' := by
  have hstep : step (.thread false) s = some ({ s with owner := none }.goThread .blocked) := by
    show threadStep false s = _
    rw [threadStep, hpc]
  have hnotified : Notified (.thread false) s := ⟨nofun, nofun⟩
  exact ⟨_, .single hnotified hstep, rfl, hexit, hclient⟩

/-- The thread gets from one point of the predicate to the next. -/
theorem lost_of_thread {pc : ThreadPc} (hstep : step (.thread false) s = some (s.goThread pc))
    (hnext : ∃ s', Reaches step Notified (s.goThread pc) s' ∧ Lost s') :
    ∃ s', Reaches step Notified s s' ∧ Lost s' := by
  obtain ⟨s', hreach, hlost⟩ := hnext
  have hnotified : Notified (.thread false) s := ⟨nofun, nofun⟩
  exact ⟨s', (Reaches.single hnotified hstep).trans hreach, hlost⟩

theorem lost_of_waitBusy (hpc : s.thread = .waitBusy) (hexit : s.reqExit = true)
    (hclient : s.client = .joining) : ∃ s', Reaches step Notified s s' ∧ Lost s' := by
  have hstep : step (.thread false) s = some (s.goThread .block) := by
    show threadStep false s = _
    rw [threadStep, hpc]
    rfl
  exact lost_of_thread hstep (lost_of_block rfl hexit hclient)

theorem lost_of_waitPause (hpc : s.thread = .waitPause) (hexit : s.reqExit = true)
    (hclient : s.client = .joining) : ∃ s', Reaches step Notified s s' ∧ Lost s' := by
  have hstep : step (.thread false) s =
      some (s.goThread (if s.reqPause then .block else .waitBusy)) := by
    show threadStep false s = _
    rw [threadStep, hpc]
  split_ifs at hstep
  · exact lost_of_thread hstep (lost_of_block rfl hexit hclient)
  · exact lost_of_thread hstep (lost_of_waitBusy rfl hexit hclient)

/-- A thread that does not hear the notification blocks, if the simulator is not busy. -/
theorem lost_of_unheard (hreq : Requested s) (hpc : s.client = .stopNotify)
    (hdeaf : s.thread.deaf = true) : ∃ s', Reaches step Notified s s' ∧ Lost s' := by
  have hexit : s.reqExit = true := hreq (by rw [hpc]; rfl)
  have hawake : s.thread ≠ .blocked := by
    intro hb
    rw [hb] at hdeaf
    contradiction
  -- The client notifies and waits, the thread goes on where it is.
  have hnotify : step (.client .stop) s = some (s.goClient .joining) := by
    have hthread : s.notify.thread = s.thread := if_neg hawake
    show clientStep .stop s = _
    rw [clientStep, hpc]
    show some { s with thread := s.notify.thread, client := .joining } = _
    rw [hthread]
    rfl
  have hnotified : Notified (.client .stop) s := ⟨nofun, nofun⟩
  have hnext : ∃ s', Reaches step Notified (s.goClient .joining) s' ∧ Lost s' := by
    cases ht : s.thread <;> rw [ht] at hdeaf
    case waitPause => exact lost_of_waitPause ht hexit rfl
    case waitBusy => exact lost_of_waitBusy ht hexit rfl
    case block => exact lost_of_block ht hexit rfl
    all_goals contradiction
  obtain ⟨s', hreach, hlost⟩ := hnext
  exact ⟨s', (Reaches.single hnotified hnotify).trans hreach, hlost⟩

/-! ## When a request is lost -/

/-- **A request to exit is lost only if its notification finds the thread between its look
at the request and its block**, and from there it may be lost. -/
theorem exit_not_lost (s : State) :
    (Reaches step Heard init s → ¬Lost s) ∧
      (Reaches step Notified init s → s.client = .stopNotify → s.thread.deaf = true →
        ∃ s', Reaches step Notified s s' ∧ Lost s') := by
  have hinit : Requested init := requested_of_not_exits rfl
  refine ⟨fun hreach hlost ↦ ?_, fun hreach ↦ ?_⟩
  · have hkeep : ∀ a t u, Requested t ∧ Awake t → Heard a t → step a t = some u →
        Requested u ∧ Awake u := by
      rintro a t u ⟨hreq, hawake⟩ ha hs
      exact ⟨requested_step hreq hs, awake_step hreq hawake ha hs⟩
    obtain ⟨-, hawake⟩ := hreach.invariant ⟨hinit, awake_of_not_exits rfl⟩ hkeep
    exact (hawake hlost.joining).2 hlost.blocked
  · have hreq : Requested s := hreach.invariant hinit fun _ _ _ h _ hs ↦ requested_step h hs
    exact lost_of_unheard hreq

/-- The thread is blocked when `stop` notifies it. -/
theorem exit_not_lost_blocked : ∃ s, runs step
      (.client .start :: List.replicate 9 (.thread false) ++ List.replicate 3 (.client .stop))
      init = some s ∧ ¬Lost s := by
  let started : State := ⟨false, false, false, false, none, .running, .lock, .idle, .none⟩
  let waiting : State := { started with ackPause := true, thread := .blocked }
  let setting : State := { waiting with client := .stopSet }
  let notifying : State := { setting with reqExit := true, client := .stopNotify }
  let joining : State := { notifying with thread := .woken, client := .joining }
  have hstart : Reaches step Heard init started := .single (a := .client .start) nofun rfl
  have hwait : Reaches step Heard started waiting := by
    have hrun : runs step (List.replicate 9 (.thread false)) started = some waiting := rfl
    refine .of_runs (fun a ha _ call hcall ↦ ?_) hrun
    rw [List.eq_of_mem_replicate ha] at hcall
    contradiction
  have hcall : Reaches step Heard waiting setting := .single (a := .client .stop) nofun rfl
  have hset : Reaches step Heard setting notifying := .single (a := .client .stop) nofun rfl
  have hnotify : Reaches step Heard notifying joining :=
    .single (a := .client .stop) (fun _ _ _ ↦ rfl) rfl
  have hreach := (((hstart.trans hwait).trans hcall).trans hset).trans hnotify
  exact ⟨joining, by decide, (exit_not_lost joining).1 hreach⟩

/-- The thread looks for a request, `stop` sets it and notifies, and the thread blocks. -/
def stoppingLate : List Action :=
  .client .start :: List.replicate 6 (.thread false) ++ List.replicate 3 (.client .stop) ++
    List.replicate 3 (.thread false)

/-- Nobody wakes the thread any more, and `join` waits for it. -/
theorem stop_lost : ∃ s, runs step stoppingLate init = some s ∧
    Reaches step Notified init s ∧ Lost s := by
  have hrun : runs step stoppingLate init =
      some ⟨false, true, true, false, none, .running, .blocked, .joining, .none⟩ := by decide
  have hnotified : ∀ a ∈ stoppingLate, ∀ s, Notified a s := by
    intro a ha _
    have hall : ∀ a ∈ stoppingLate, a ≠ .wakeThread ∧ a ≠ .wakeClient := by decide
    exact hall a ha
  exact ⟨_, hrun, .of_runs hnotified hrun, rfl, rfl, rfl⟩

end SimThread

end Pinwheel
