import Mathlib.Tactic.SplitIfs
import Pinwheel.Lib.Transitions
import Pinwheel.Simulator.SimThread

/-!
# Pausing gives exclusive access

The mutex is held by whoever is in the code that it guards, the acknowledgement is set
while the thread is in its wait, and so a `pause` that returns has found the thread
waiting.  It can leave the wait to exit only, until the request is withdrawn.
-/

namespace Pinwheel

namespace SimThread

open Transitions State

/-! ## Regions of the code -/

/-- The thread holds the mutex. -/
def ThreadPc.locks : ThreadPc → Bool
  | .testPause | .testBusy | .setAck | .notifyAck | .waitExit | .waitPause | .waitBusy | .block
  | .clearAck | .notifyClear | .testExit | .setAckExit | .notifyExit | .unlockExit
  | .unlock => true
  | _ => false

/-- The thread has acknowledged a pause. -/
def ThreadPc.acks : ThreadPc → Bool
  | .notifyAck | .waitExit | .waitPause | .waitBusy | .block | .blocked | .woken | .clearAck => true
  | _ => false

/-- What the invariant sees of a point. -/
def ThreadPc.region (pc : ThreadPc) : Bool × Bool := (pc.locks, pc.acks)

/-- The client holds the mutex. -/
def ClientPc.locks : ClientPc → Bool
  | .pauseSet | .pauseNotify | .pauseTest | .pauseBlock | .pauseUnlock => true
  | _ => false

/-- The client has requested a pause and waits for it. -/
def ClientPc.requests : ClientPc → Bool
  | .pauseNotify | .pauseTest | .pauseBlock | .pauseBlocked | .pauseWoken | .pauseUnlock => true
  | _ => false

/-- The client is withdrawing its request. -/
def ClientPc.resumes : ClientPc → Bool
  | .resumeClear | .resumeNotify => true
  | _ => false

/-- A paused thread: it waits as long as nobody asks it to exit, or it is on its way out. -/
def Parked (reqExit : Bool) : ThreadPc → Bool
  | .waitExit | .waitPause | .block | .blocked | .woken => true
  | .clearAck | .notifyClear | .testExit => reqExit
  | .setAckExit | .notifyExit | .unlockExit | .exited => true
  | _ => false

/-- What holds at any time. -/
structure Inv (s : State) : Prop where
  threadOwns : s.owner = some .thread ↔ s.thread.locks = true
  clientOwns : s.owner = some .client ↔ s.client.locks = true
  ack : s.ackPause = s.thread.acks
  requests : s.client.requests = true → s.reqPause = true
  granted : s.client = .pauseUnlock → s.ackPause = true
  resumes : s.client.resumes = true → s.hold ≠ .paused
  unborn : s.main = .null → s.thread = .unborn
  started : s.hold = .paused → s.main ≠ .null
  paused : s.hold = .paused → s.reqPause = true ∧ Parked s.reqExit s.thread = true

theorem inv_init : Inv init where
  threadOwns := by decide
  clientOwns := by decide
  ack := rfl
  requests := nofun
  granted := nofun
  resumes := nofun
  unborn _ := rfl
  started := nofun
  paused := nofun

namespace Inv

variable {s s' : State} {busy : Bool} {call : Call}

/-! ## Moves that keep the invariant -/

/-- At most one party holds the mutex. -/
theorem not_both (h : Inv s) : ¬(s.thread.locks = true ∧ s.client.locks = true) := by
  rintro ⟨ht, hc⟩
  have := (h.threadOwns.mpr ht).symm.trans (h.clientOwns.mpr hc)
  contradiction

/-- The thread moves, and may lock or unlock the mutex and set or clear its
acknowledgement. -/
theorem move (h : Inv s) {pc₀ pc : ThreadPc} (hpc : s.thread = pc₀) (hborn : pc₀ ≠ .unborn)
    (owner : Option Party) (hthread : owner = some .thread ↔ pc.locks = true)
    (hclient : owner = some .client ↔ s.client.locks = true)
    (ack : Bool) (hack : ack = pc.acks) (hgranted : s.client = .pauseUnlock → ack = true)
    (hparked : s.hold = .paused → Parked s.reqExit pc₀ = true → Parked s.reqExit pc = true) :
    Inv ({ s with owner := owner, ackPause := ack }.goThread pc) where
  threadOwns := hthread
  clientOwns := hclient
  ack := hack
  requests := h.requests
  granted := hgranted
  resumes := h.resumes
  unborn hm := absurd (hpc.symm.trans (h.unborn hm)) hborn
  started := h.started
  paused hp := ⟨(h.paused hp).1, hparked hp (hpc ▸ (h.paused hp).2)⟩

/-- The thread moves within a region. -/
theorem goThread (h : Inv s) {pc₀ pc : ThreadPc} (hpc : s.thread = pc₀) (hborn : pc₀ ≠ .unborn)
    (hregion : pc.region = pc₀.region)
    (hparked : Parked s.reqExit pc₀ = true → Parked s.reqExit pc = true) :
    Inv (s.goThread pc) := by
  obtain ⟨hlocks, hacks⟩ := Prod.mk.inj hregion
  refine h.move hpc hborn s.owner ?_ h.clientOwns s.ackPause ?_ h.granted fun _ ↦ hparked
  · rw [h.threadOwns, hpc, hlocks]
  · rw [h.ack, hpc, hacks]

/-- The thread locks the mutex. -/
theorem acquireThread (h : Inv s) {pc₀ pc : ThreadPc} (hpc : s.thread = pc₀)
    (hs : (acquire .thread s).map (State.goThread · pc) = some s') (hborn : pc₀ ≠ .unborn)
    (hlocks : pc.locks = true) (hacks : pc.acks = pc₀.acks)
    (hparked : Parked s.reqExit pc₀ = true → Parked s.reqExit pc = true) : Inv s' := by
  obtain ⟨t, ht, rfl⟩ := Option.map_eq_some_iff.mp hs
  obtain ⟨hfree, hsome⟩ := Option.ite_none_right_eq_some.mp ht
  obtain rfl := Option.some.inj hsome
  have hclient : ¬s.client.locks = true := by
    rw [← h.clientOwns, hfree]
    exact nofun
  refine h.move hpc hborn (some .thread) (iff_of_true rfl hlocks) (iff_of_false nofun hclient)
    s.ackPause ?_ h.granted fun _ ↦ hparked
  rw [h.ack, hpc, hacks]

/-- The client is not in a region that the thread holds the mutex for. -/
theorem client_not_locks (h : Inv s) {pc₀ : ThreadPc} (hpc : s.thread = pc₀)
    (hlocked : pc₀.locks = true) : ¬s.client.locks = true :=
  fun hc ↦ h.not_both ⟨hpc ▸ hlocked, hc⟩

/-- The thread unlocks the mutex. -/
theorem releaseThread (h : Inv s) {pc₀ pc : ThreadPc} (hpc : s.thread = pc₀)
    (hborn : pc₀ ≠ .unborn) (hlocked : pc₀.locks = true) (hlocks : pc.locks = false)
    (hacks : pc.acks = pc₀.acks)
    (hparked : Parked s.reqExit pc₀ = true → Parked s.reqExit pc = true) :
    Inv ({ s with owner := none }.goThread pc) := by
  refine h.move hpc hborn none (iff_of_false nofun (Bool.eq_false_iff.mp hlocks))
    (iff_of_false nofun (h.client_not_locks hpc hlocked)) s.ackPause ?_ h.granted fun _ ↦ hparked
  rw [h.ack, hpc, hacks]

/-- The thread sets or clears its acknowledgement.  No client is about to rely on it, as
the thread holds the mutex. -/
theorem acknowledge (h : Inv s) {pc₀ pc : ThreadPc} (hpc : s.thread = pc₀) (hborn : pc₀ ≠ .unborn)
    {ack : Bool} (hack : ack = pc.acks) (hlocked : pc₀.locks = true) (hlocks : pc.locks = true)
    (hparked : Parked s.reqExit pc₀ = true → Parked s.reqExit pc = true) :
    Inv ({ s with ackPause := ack }.goThread pc) := by
  have hclient := h.client_not_locks hpc hlocked
  refine h.move hpc hborn s.owner ?_ h.clientOwns ack hack (fun hc ↦ ?_) fun _ ↦ hparked
  · rw [h.threadOwns, hpc, hlocked, hlocks]
  · rw [hc] at hclient
    exact absurd rfl hclient

/-- The client moves within a region. -/
theorem goClient (h : Inv s) {pc₀ pc : ClientPc} (hpc : s.client = pc₀)
    (hlocks : pc.locks = pc₀.locks) (hreq : pc.requests = true → s.reqPause = true)
    (hgranted : pc = .pauseUnlock → s.ackPause = true)
    (hresumes : pc.resumes = true → s.hold ≠ .paused) : Inv (s.goClient pc) where
  threadOwns := h.threadOwns
  clientOwns := h.clientOwns.trans (Bool.eq_iff_iff.mp (hpc ▸ hlocks.symm))
  ack := h.ack
  requests := hreq
  granted := hgranted
  resumes := hresumes
  unborn := h.unborn
  started := h.started
  paused := h.paused

/-- What the mutex does not guard is changed. -/
theorem update (h : Inv s) (reqPause reqExit ackExit : Bool) (main : MainPtr) (hold : Hold)
    (hreq : s.client.requests = true → reqPause = true)
    (hresumes : s.client.resumes = true → hold ≠ .paused)
    (hunborn : main = .null → s.thread = .unborn) (hstarted : hold = .paused → main ≠ .null)
    (hpaused : hold = .paused → reqPause = true ∧ Parked reqExit s.thread = true) :
    Inv { s with
      reqPause := reqPause
      reqExit := reqExit
      ackExit := ackExit
      main := main
      hold := hold } where
  threadOwns := h.threadOwns
  clientOwns := h.clientOwns
  ack := h.ack
  requests := hreq
  granted := h.granted
  resumes := hresumes
  unborn := hunborn
  started := hstarted
  paused := hpaused

/-- A notification moves nobody out of a region. -/
theorem notify (h : Inv s) : Inv s.notify := by
  have hthread : Inv (s.goThread (if s.thread = .blocked then .woken else s.thread)) := by
    by_cases hb : s.thread = .blocked
    · rw [if_pos hb]
      exact h.goThread hb nofun rfl fun _ ↦ rfl
    · rw [if_neg hb]
      exact h
  have hclient : s.notify = (s.goThread (if s.thread = .blocked then .woken else s.thread)).goClient
      (if s.client = .pauseBlocked then .pauseWoken else s.client) := rfl
  rw [hclient]
  by_cases hb : s.client = .pauseBlocked
  · rw [if_pos hb]
    exact hthread.goClient hb rfl (fun _ ↦ h.requests (hb ▸ rfl)) nofun nofun
  · rw [if_neg hb]
    exact hthread

/-! ## The steps of the thread -/

theorem ackExit (h : Inv s) : Inv { s with ackExit := true } :=
  h.update s.reqPause s.reqExit true s.main s.hold h.requests h.resumes h.unborn h.started h.paused

/-- A notification by the thread, which is not the one that waits. -/
theorem notifyThread (h : Inv s) {pc₀ pc : ThreadPc} (hpc : s.thread = pc₀)
    (hwait : pc₀ ≠ .blocked) (hborn : pc₀ ≠ .unborn) (hregion : pc.region = pc₀.region)
    (hparked : Parked s.reqExit pc₀ = true → Parked s.reqExit pc = true) :
    Inv (s.notify.goThread pc) := by
  have hthread : s.notify.thread = pc₀ := by
    rw [← hpc]
    exact if_neg (hpc ▸ hwait)
  exact h.notify.goThread hthread hborn hregion hparked

theorem threadStep (h : Inv s) (hs : SimThread.threadStep busy s = some s') : Inv s' := by
  unfold SimThread.threadStep at hs
  cases hpc : s.thread <;> rw [hpc] at hs
  case unborn | blocked | exited => contradiction
  case lock => exact h.acquireThread hpc hs nofun rfl rfl nofun
  case woken => exact h.acquireThread hpc hs nofun rfl rfl id
  all_goals obtain rfl := Option.some.inj hs
  -- What guards the wait.
  case testPause => exact h.goThread hpc nofun (by split_ifs <;> rfl) nofun
  case testBusy => exact h.goThread hpc nofun (by split_ifs <;> rfl) nofun
  case setAck => exact h.acknowledge hpc nofun rfl rfl rfl nofun
  case notifyAck => exact h.notifyThread hpc nofun nofun rfl nofun
  -- The wait: a paused thread leaves it to exit only.
  case waitExit =>
    refine h.goThread hpc nofun (by split_ifs <;> rfl) fun _ ↦ ?_
    split_ifs with hexit
    · exact hexit
    · rfl
  case waitPause =>
    refine h.move hpc nofun s.owner ?_ h.clientOwns s.ackPause ?_ h.granted fun hp _ ↦ ?_
    · rw [h.threadOwns, hpc]
      split_ifs <;> rfl
    · rw [h.ack, hpc]
      split_ifs <;> rfl
    · rw [if_pos (h.paused hp).1]
      rfl
  case waitBusy => exact h.goThread hpc nofun (by split_ifs <;> rfl) nofun
  case block => exact h.releaseThread hpc nofun rfl rfl rfl id
  case clearAck => exact h.acknowledge hpc nofun rfl rfl rfl id
  case notifyClear => exact h.notifyThread hpc nofun nofun rfl id
  -- The way out.
  case testExit =>
    refine h.goThread hpc nofun (by split_ifs <;> rfl) fun (hexit : s.reqExit = true) ↦ ?_
    rw [if_pos hexit]
    rfl
  case setAckExit => exact h.ackExit.goThread hpc nofun rfl id
  case notifyExit => exact h.notifyThread hpc nofun nofun rfl id
  case unlockExit => exact h.releaseThread hpc nofun rfl rfl rfl id
  -- The loop, which a paused thread is not in.
  case unlock => exact h.releaseThread hpc nofun rfl rfl rfl nofun
  case busy => exact h.goThread hpc nofun (by split_ifs <;> rfl) nofun
  case loopBusy => exact h.goThread hpc nofun (by split_ifs <;> rfl) nofun
  case loopFlags => exact h.goThread hpc nofun (by split_ifs <;> rfl) nofun
  case step => exact h.goThread hpc nofun rfl nofun
  case stepping => exact h.goThread hpc nofun rfl nofun

/-! ## The steps of the client -/

/-- The client locks the mutex. -/
theorem acquireClient (h : Inv s) {pc : ClientPc}
    (hs : (acquire .client s).map (State.goClient · pc) = some s') (hlocks : pc.locks = true)
    (hreq : pc.requests = true → s.reqPause = true) (hunlock : pc ≠ .pauseUnlock)
    (hresumes : pc.resumes = false) : Inv s' := by
  obtain ⟨t, ht, rfl⟩ := Option.map_eq_some_iff.mp hs
  obtain ⟨hfree, hsome⟩ := Option.ite_none_right_eq_some.mp ht
  obtain rfl := Option.some.inj hsome
  have hthread : ¬s.thread.locks = true := by
    rw [← h.threadOwns, hfree]
    exact nofun
  exact {
    threadOwns := iff_of_false nofun hthread
    clientOwns := iff_of_true rfl hlocks
    ack := h.ack
    requests := hreq
    granted := fun hu ↦ absurd hu hunlock
    resumes := fun hr ↦ absurd (hresumes.symm.trans hr) Bool.false_ne_true
    unborn := h.unborn
    started := h.started
    paused := h.paused }

/-- The thread is not in a region that the client holds the mutex for. -/
theorem thread_not_locks (h : Inv s) {pc₀ : ClientPc} (hpc : s.client = pc₀)
    (hlocked : pc₀.locks = true) : ¬s.thread.locks = true :=
  fun ht ↦ h.not_both ⟨ht, hpc ▸ hlocked⟩

/-- The client unlocks the mutex, and may have been granted a pause. -/
theorem releaseClient (h : Inv s) {pc₀ pc : ClientPc} (hpc : s.client = pc₀)
    (hlocked : pc₀.locks = true) (hlocks : pc.locks = false)
    (hreq : pc.requests = true → s.reqPause = true) (hresumes : pc.resumes = false) {hold : Hold}
    (hpaused : hold = .paused →
      s.main ≠ .null ∧ s.reqPause = true ∧ Parked s.reqExit s.thread = true) :
    Inv ({ s with owner := none, hold := hold }.goClient pc) where
  threadOwns := iff_of_false nofun (h.thread_not_locks hpc hlocked)
  clientOwns := iff_of_false nofun (Bool.eq_false_iff.mp hlocks)
  ack := h.ack
  requests := hreq
  granted (hu : pc = .pauseUnlock) := by
    rw [hu] at hlocks
    contradiction
  resumes hr := absurd (hresumes.symm.trans hr) Bool.false_ne_true
  unborn := h.unborn
  started hp := (hpaused hp).1
  paused hp := (hpaused hp).2

/-- **A pause that is granted has found the thread waiting**: it has acknowledged, and it
does not hold the mutex. -/
theorem parked_of_granted (h : Inv s) (hpc : s.client = .pauseUnlock) :
    s.main ≠ .null ∧ s.reqPause = true ∧ Parked s.reqExit s.thread = true := by
  have hacks : s.thread.acks = true := h.ack.symm.trans (h.granted hpc)
  have hlocks := h.thread_not_locks hpc rfl
  refine ⟨fun hm ↦ ?_, h.requests (by rw [hpc]; rfl), ?_⟩
  · rw [h.unborn hm] at hacks
    contradiction
  · cases ht : s.thread <;> rw [ht] at hacks hlocks <;> first
      | rfl
      | contradiction

/-- A new thread. -/
theorem start (h : Inv s) (hmain : s.main = .null) :
    Inv { s with main := .running, thread := .lock } := by
  have hunborn := h.unborn hmain
  have hthread := h.threadOwns
  have hack := h.ack
  rw [hunborn] at hthread hack
  exact {
    threadOwns := hthread
    clientOwns := h.clientOwns
    ack := hack
    requests := h.requests
    granted := h.granted
    resumes := h.resumes
    unborn := nofun
    started := nofun
    paused := fun hp ↦ absurd hmain (h.started hp) }

theorem setHold (h : Inv s) {hold : Hold} (hhold : hold ≠ .paused) :
    Inv { s with hold := hold } :=
  h.update s.reqPause s.reqExit s.ackExit s.main hold h.requests (fun _ ↦ hhold) h.unborn
    (fun hp ↦ absurd hp hhold) fun hp ↦ absurd hp hhold

theorem callStep (h : Inv s) (hidle : s.client = .idle)
    (hs : SimThread.callStep call s = some s') : Inv s' := by
  unfold SimThread.callStep at hs
  cases call with
  | start =>
    obtain ⟨hmain, hsome⟩ := Option.ite_none_right_eq_some.mp hs
    obtain rfl := Option.some.inj hsome
    exact h.start hmain
  | stop =>
    dsimp only at hs
    split_ifs at hs <;> obtain rfl := Option.some.inj hs
    · exact h
    · exact h.goClient hidle rfl nofun nofun nofun
  | pause =>
    dsimp only at hs
    split_ifs at hs <;> obtain rfl := Option.some.inj hs
    · exact h.setHold nofun
    · exact h.goClient hidle rfl nofun nofun nofun
  | resume =>
    dsimp only at hs
    split_ifs at hs <;> obtain rfl := Option.some.inj hs
    · exact h.setHold nofun
    · have hnone : Inv { s with hold := .none } := h.setHold nofun
      exact hnone.goClient hidle rfl nofun nofun fun _ ↦ nofun

/-- A request to exit frees no paused thread. -/
theorem reqExit (h : Inv s) : Inv { s with reqExit := true } := by
  refine h.update s.reqPause true s.ackExit s.main s.hold h.requests h.resumes h.unborn h.started
    fun hp ↦ ?_
  obtain ⟨hreq, hparked⟩ := h.paused hp
  refine ⟨hreq, ?_⟩
  cases ht : s.thread <;> rw [ht] at hparked <;> first
    | rfl
    | contradiction

theorem reqPause (h : Inv s) : Inv { s with reqPause := true } :=
  h.update true s.reqExit s.ackExit s.main s.hold (fun _ ↦ rfl) h.resumes h.unborn h.started
    fun hp ↦ ⟨rfl, (h.paused hp).2⟩

/-- The request is withdrawn by `resume` only, after the pause has ended. -/
theorem clearPause (h : Inv s) (hpc : s.client = .resumeClear) :
    Inv ({ s with reqPause := false }.goClient .resumeNotify) := by
  have hhold : s.hold ≠ .paused := h.resumes (by rw [hpc]; rfl)
  have hreq : s.client.requests = true → false = true := by
    rw [hpc]
    exact id
  have hclear : Inv { s with reqPause := false } :=
    h.update false s.reqExit s.ackExit s.main s.hold hreq h.resumes h.unborn h.started
      fun hp ↦ absurd hp hhold
  exact hclear.goClient hpc rfl nofun nofun fun _ ↦ hhold

theorem deleteMain (h : Inv s) : Inv { s with main := .deleted } :=
  h.update s.reqPause s.reqExit s.ackExit .deleted s.hold h.requests h.resumes nofun
    (fun _ ↦ nofun) h.paused

/-- A notification by the client, which is not the one that waits. -/
theorem notifyClient (h : Inv s) {pc₀ pc : ClientPc} (hpc : s.client = pc₀)
    (hwait : pc₀ ≠ .pauseBlocked) (hlocks : pc.locks = pc₀.locks)
    (hreq : pc.requests = true → s.reqPause = true) (hunlock : pc ≠ .pauseUnlock)
    (hresumes : pc.resumes = false) : Inv (s.notify.goClient pc) := by
  have hclient : s.notify.client = pc₀ := by
    rw [← hpc]
    exact if_neg (hpc ▸ hwait)
  exact h.notify.goClient hclient hlocks hreq (fun hu ↦ absurd hu hunlock) fun hr ↦
    absurd (hresumes.symm.trans hr) Bool.false_ne_true

theorem clientStep (h : Inv s) (hs : SimThread.clientStep call s = some s') : Inv s' := by
  unfold SimThread.clientStep at hs
  cases hpc : s.client <;> rw [hpc] at hs
  case idle => exact h.callStep hpc hs
  case pauseBlocked => contradiction
  case pauseLock => exact h.acquireClient hs rfl nofun nofun rfl
  case pauseWoken =>
    exact h.acquireClient hs rfl (fun _ ↦ h.requests (by rw [hpc]; rfl)) nofun rfl
  case joining =>
    obtain ⟨-, hsome⟩ := Option.ite_none_right_eq_some.mp hs
    obtain rfl := Option.some.inj hsome
    exact h.deleteMain.goClient hpc rfl nofun nofun nofun
  all_goals obtain rfl := Option.some.inj hs
  case stopSet => exact h.reqExit.goClient hpc rfl nofun nofun nofun
  case stopNotify => exact h.notifyClient hpc nofun rfl nofun nofun rfl
  case pauseSet => exact h.reqPause.goClient hpc rfl (fun _ ↦ rfl) nofun nofun
  case pauseNotify =>
    exact h.notifyClient hpc nofun rfl (fun _ ↦ h.requests (by rw [hpc]; rfl)) nofun rfl
  case pauseTest =>
    have hreq : s.reqPause = true := h.requests (by rw [hpc]; rfl)
    split_ifs with hack
    · exact h.goClient hpc rfl (fun _ ↦ hreq) (fun _ ↦ hack) nofun
    · exact h.goClient hpc rfl (fun _ ↦ hreq) nofun nofun
  case pauseBlock =>
    exact h.releaseClient hpc rfl rfl (fun _ ↦ h.requests (by rw [hpc]; rfl)) rfl fun hp ↦
      ⟨h.started hp, h.paused hp⟩
  case pauseUnlock =>
    refine h.releaseClient hpc rfl rfl ?_ rfl fun _ ↦ h.parked_of_granted hpc
    exact nofun
  case resumeClear => exact h.clearPause hpc
  case resumeNotify => exact h.notifyClient hpc nofun rfl nofun nofun rfl

/-- **Every step keeps the invariant.** -/
theorem step {a : Action} (h : Inv s) (hs : SimThread.step a s = some s') : Inv s' := by
  cases a with
  | thread busy => exact h.threadStep hs
  | client call => exact h.clientStep hs
  | wakeThread =>
    obtain ⟨hpc, hsome⟩ := Option.ite_none_right_eq_some.mp hs
    obtain rfl := Option.some.inj hsome
    exact h.goThread hpc nofun rfl fun _ ↦ rfl
  | wakeClient =>
    obtain ⟨hpc, hsome⟩ := Option.ite_none_right_eq_some.mp hs
    obtain rfl := Option.some.inj hsome
    exact h.goClient hpc rfl (fun _ ↦ h.requests (by rw [hpc]; rfl)) nofun nofun

end Inv

/-- The states of a simulation thread and its client, in any order of their steps. -/
def Reachable (s : State) : Prop := Reaches step (fun _ _ ↦ True) init s

theorem Reachable.inv {s : State} (h : Reachable s) : Inv s :=
  h.invariant inv_init fun _ _ _ h _ hs ↦ h.step hs

/-- The thread is in `sim->step()`, or about to begin it. -/
def State.Steps (s : State) : Prop := s.thread = .step ∨ s.thread = .stepping

/-- **A pause of a started thread gives exclusive access.** -/
theorem pause_exclusive {s : State} (h : Reachable s) (hhold : s.hold = .paused) : ¬s.Steps := by
  have hparked := (h.inv.paused hhold).2
  rintro (hpc | hpc) <;> rw [hpc] at hparked <;> contradiction

/-- A thread is started and paused while it works. -/
def pausing : List Action :=
  .client .start :: List.replicate 8 (.thread true) ++ List.replicate 6 (.client .pause) ++
    List.replicate 11 (.thread true) ++ List.replicate 3 (.client .pause)

theorem pause_exclusive_pausing :
    ∃ s, runs step pausing init = some s ∧ s.hold = .paused ∧ ¬s.Steps := by
  have hrun : runs step pausing init =
      some ⟨true, true, false, false, none, .running, .blocked, .idle, .paused⟩ := by decide
  exact ⟨_, hrun, rfl, pause_exclusive (Reaches.of_runs (fun _ _ _ ↦ trivial) hrun) rfl⟩

/-- A pause before there is a thread to pause, and then the start of the thread. -/
def pausingNothing : List Action :=
  .client .pause :: .client .start :: List.replicate 9 (.thread true)

/-- The thread steps although a pause has returned and nobody has resumed. -/
theorem pause_of_nothing :
    runs step pausingNothing init =
        some ⟨false, false, false, false, none, .running, .stepping, .idle, .empty⟩ ∧
      ∃ s, Reachable s ∧ s.hold ≠ .none ∧ s.Steps := by
  have hrun : runs step pausingNothing init =
      some ⟨false, false, false, false, none, .running, .stepping, .idle, .empty⟩ := by decide
  exact ⟨hrun, _, Reaches.of_runs (fun _ _ _ ↦ trivial) hrun, nofun, .inr rfl⟩

end SimThread

end Pinwheel
