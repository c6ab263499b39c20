/-!
# The simulation thread

`simulator/sim_thread.h` and `sim_thread.cpp`: a thread that steps a simulator, and the
client that starts, pauses, resumes and stops it.  Every party is at some point of its
code and takes one atomic step at a time: a lock or an unlock of the mutex, an update or
a read of the flags, a notification, a wait.  `AtomicFlags::set` and `clear` are two
steps, the update and the notification.  What `sim->busy()` answers is left open.
-/

namespace Pinwheel

namespace SimThread

/-- Where `thread_main` is. -/
inductive ThreadPc where
  /-- Not started. -/
  | unborn
  /-- Before `unique_lock lock(sync.mut)`. -/
  | lock
  /-- `sync.check(REQ_PAUSE) ||`. -/
  | testPause
  /-- `!sim->busy()`. -/
  | testBusy
  /-- `flags |= ACK_PAUSE`. -/
  | setAck
  | notifyAck
  /-- In the predicate of the wait: `sync.check(REQ_EXIT) ||`. -/
  | waitExit
  /-- `!sync.check(REQ_PAUSE) &&`. -/
  | waitPause
  /-- `sim->busy()`. -/
  | waitBusy
  /-- The predicate was false; still to block and release the mutex. -/
  | block
  | blocked
  /-- Before the mutex is locked again. -/
  | woken
  /-- `flags &= ~ACK_PAUSE`. -/
  | clearAck
  | notifyClear
  /-- `if (sync.check(REQ_EXIT))`. -/
  | testExit
  /-- `flags |= ACK_EXIT`. -/
  | setAckExit
  | notifyExit
  /-- The end of the scope of the lock, after `break`. -/
  | unlockExit
  | exited
  /-- The end of the scope of the lock. -/
  | unlock
  /-- `if (sim->busy())`. -/
  | busy
  /-- `while (sim->busy() &&`. -/
  | loopBusy
  /-- `!sync.check(REQ_PAUSE | REQ_EXIT))`. -/
  | loopFlags
  /-- Before `sim->step()`. -/
  | step
  /-- In `sim->step()`. -/
  | stepping
deriving DecidableEq, Repr

/-- Where the client is. -/
inductive ClientPc where
  /-- In none of the four functions. -/
  | idle
  /-- `stop`: `flags |= REQ_EXIT`. -/
  | stopSet
  | stopNotify
  /-- `stop`: `main->join()`. -/
  | joining
  /-- `pause`: before `unique_lock lock(sync.mut)`. -/
  | pauseLock
  /-- `pause`: `flags |= REQ_PAUSE`. -/
  | pauseSet
  | pauseNotify
  /-- `pause`: in the predicate of the wait. -/
  | pauseTest
  /-- `pause`: the predicate was false. -/
  | pauseBlock
  | pauseBlocked
  | pauseWoken
  /-- `pause`: the end of the scope of the lock. -/
  | pauseUnlock
  /-- `resume`: `flags &= ~REQ_PAUSE`. -/
  | resumeClear
  | resumeNotify
deriving DecidableEq, Repr

inductive Party where
  | thread
  | client
deriving DecidableEq, Repr

/-- The pointer `main`, which `stop` deletes but does not reset. -/
inductive MainPtr where
  | null
  | running
  | deleted
deriving DecidableEq, Repr

/-- What the last `pause` that returned has found, if no `resume` was called since. -/
inductive Hold where
  | none
  /-- No thread was started. -/
  | empty
  | paused
deriving DecidableEq, Repr

structure State where
  reqPause : Bool
  ackPause : Bool
  reqExit : Bool
  ackExit : Bool
  owner : Option Party
  main : MainPtr
  thread : ThreadPc
  client : ClientPc
  hold : Hold
deriving DecidableEq, Repr

/-- A `SimThread` that was constructed. -/
def init : State := ⟨false, false, false, false, none, .null, .unborn, .idle, .none⟩

inductive Call where
  | start
  | stop
  | pause
  | resume
deriving DecidableEq, Repr

/-- Who goes next, with what `sim->busy()` answers if the thread asks, and with what the
client calls if it is idle. -/
inductive Action where
  | thread (busy : Bool)
  | client (call : Call)
  /-- The thread wakes up without a notification. -/
  | wakeThread
  /-- The client wakes up without a notification. -/
  | wakeClient
deriving DecidableEq, Repr

namespace State

variable (s : State)

/-- `cond.notify_all()`. -/
def notify : State :=
  { s with
    thread := if s.thread = .blocked then .woken else s.thread
    client := if s.client = .pauseBlocked then .pauseWoken else s.client }

def goThread (pc : ThreadPc) : State := { s with thread := pc }

def goClient (pc : ClientPc) : State := { s with client := pc }

end State

open State

/-- The mutex is locked if it is free. -/
def acquire (p : Party) (s : State) : Option State :=
  if s.owner = none then some { s with owner := some p } else none

/-- One step of `thread_main`.  The answers of `sim->busy()` that only choose between two
comments are left out. -/
def threadStep (busy : Bool) (s : State) : Option State :=
  match s.thread with
  | .unborn => none
  | .lock => (acquire .thread s).map (goThread · .testPause)
  | .testPause => some (s.goThread (if s.reqPause then .setAck else .testBusy))
  | .testBusy => some (s.goThread (if busy then .testExit else .setAck))
  | .setAck => some ({ s with ackPause := true }.goThread .notifyAck)
  | .notifyAck => some (s.notify.goThread .waitExit)
  | .waitExit => some (s.goThread (if s.reqExit then .clearAck else .waitPause))
  | .waitPause => some (s.goThread (if s.reqPause then .block else .waitBusy))
  | .waitBusy => some (s.goThread (if busy then .clearAck else .block))
  | .block => some ({ s with owner := none }.goThread .blocked)
  | .blocked => none
  | .woken => (acquire .thread s).map (goThread · .waitExit)
  | .clearAck => some ({ s with ackPause := false }.goThread .notifyClear)
  | .notifyClear => some (s.notify.goThread .testExit)
  | .testExit => some (s.goThread (if s.reqExit then .setAckExit else .unlock))
  | .setAckExit => some ({ s with ackExit := true }.goThread .notifyExit)
  | .notifyExit => some (s.notify.goThread .unlockExit)
  | .unlockExit => some ({ s with owner := none }.goThread .exited)
  | .exited => none
  | .unlock => some ({ s with owner := none }.goThread .busy)
  | .busy => some (s.goThread (if busy then .loopBusy else .lock))
  | .loopBusy => some (s.goThread (if busy then .loopFlags else .lock))
  | .loopFlags => some (s.goThread (if s.reqPause || s.reqExit then .lock else .step))
  | .step => some (s.goThread .stepping)
  | .stepping => some (s.goThread .loopBusy)

/-- A call of one of the four functions.  `start` checks that there was no thread before;
`stop` after `stop` has no defined behaviour, and no step after the notification. -/
def callStep (call : Call) (s : State) : Option State :=
  match call with
  | .start =>
    if s.main = .null then some { s with main := .running, thread := .lock } else none
  | .stop => if s.main = .null then some s else some (s.goClient .stopSet)
  | .pause =>
    if s.main = .null then some { s with hold := .empty } else some (s.goClient .pauseLock)
  | .resume =>
    if s.main = .null then some { s with hold := .none }
    else some ({ s with hold := .none }.goClient .resumeClear)

/-- One step of the client. -/
def clientStep (call : Call) (s : State) : Option State :=
  match s.client with
  | .idle => callStep call s
  | .stopSet => some ({ s with reqExit := true }.goClient .stopNotify)
  | .stopNotify => some (s.notify.goClient .joining)
  | .joining =>
    if s.main = .running ∧ s.thread = .exited then
      some ({ s with main := .deleted }.goClient .idle)
    else none
  | .pauseLock => (acquire .client s).map (goClient · .pauseSet)
  | .pauseSet => some ({ s with reqPause := true }.goClient .pauseNotify)
  | .pauseNotify => some (s.notify.goClient .pauseTest)
  | .pauseTest => some (s.goClient (if s.ackPause then .pauseUnlock else .pauseBlock))
  | .pauseBlock => some ({ s with owner := none }.goClient .pauseBlocked)
  | .pauseBlocked => none
  | .pauseWoken => (acquire .client s).map (goClient · .pauseTest)
  | .pauseUnlock => some ({ s with owner := none, hold := .paused }.goClient .idle)
  | .resumeClear => some ({ s with reqPause := false }.goClient .resumeNotify)
  | .resumeNotify => some (s.notify.goClient .idle)

def step (a : Action) (s : State) : Option State :=
  match a with
  | .thread busy => threadStep busy s
  | .client call => clientStep call s
  | .wakeThread => if s.thread = .blocked then some (s.goThread .woken) else none
  | .wakeClient => if s.client = .pauseBlocked then some (s.goClient .pauseWoken) else none

end SimThread

end Pinwheel
