import Mathlib.Tactic.Linarith
import Pinwheel.Lib.Run
import Pinwheel.Uart.Branches
import Pinwheel.Uart.Hello

/-!
# The hello client on its transmitter

The client asks for a byte to be sent for as long as it is in `SEND`, and takes
`get_ready` for the answer.  The transmitter loads on a condition of its own,
which differs from `get_ready` while it sends the extra stop bits.  `Phase` is
the joint invariant that keeps a sending client away from those.
-/

namespace Pinwheel

open Clocked

namespace UartTx

variable (t : UartTx) {data : BitVec 8} {req : Bool}

/-- Clocks until the transmitter is idle, if nothing is sent. -/
def untilIdle : ℕ :=
  (17 - t.bitCount.toNat) * (t.bitDelayMax.toNat + 1) + (t.bitDelayMax.toNat - t.bitDelay.toNat)

/-- The counters are in range. -/
structure InRange : Prop where
  count : t.bitCount.toNat ≤ 17
  delay : t.bitDelay.toNat ≤ t.bitDelayMax.toNat

variable {t}

theorem InRange.tick (h : t.InRange) (reset : Bool) : (t.tick reset data req).InRange := by
  obtain ⟨hc, hd⟩ := h
  have hmax := t.bitDelayMax.isLt
  unfold UartTx.tick
  split_ifs with hr h1 h2 h3 h4
  · exact ⟨Nat.le_refl _, Nat.le_refl _⟩
  · rw [BitVec.lt_def] at h1
    refine ⟨hc, ?_⟩
    simp only [BitVec.toNat_add, BitVec.toNat_ofNat]
    omega
  · rw [BitVec.lt_def, show bitCountDone.toNat = 10 from rfl] at h2
    refine ⟨?_, Nat.zero_le _⟩
    simp only [BitVec.toNat_add, BitVec.toNat_ofNat]
    omega
  · exact ⟨Nat.zero_le _, Nat.zero_le _⟩
  · rw [BitVec.lt_def, show bitCountMax.toNat = 17 from rfl] at h4
    refine ⟨?_, Nat.zero_le _⟩
    simp only [BitVec.toNat_add, BitVec.toNat_ofNat]
    omega
  · exact ⟨hc, hd⟩

theorem inRange_reset (t : UartTx) (data : BitVec 8) (req : Bool) :
    (t.tick true data req).InRange :=
  ⟨Nat.le_refl _, Nat.le_refl _⟩

theorem getIdle_iff : t.getIdle = true ↔ t.bitCount.toNat = 17 ∧ t.bitDelay = t.bitDelayMax := by
  rw [getIdle, Bool.and_eq_true, beq_iff_eq, beq_iff_eq, ← BitVec.toNat_inj]
  rfl

theorem getReady_iff :
    t.getReady = true ↔
      (t.bitCount.toNat = 10 ∧ t.bitDelay = t.bitDelayMax) ∨ 10 < t.bitCount.toNat := by
  rw [getReady, Bool.or_eq_true, Bool.and_eq_true, beq_iff_eq, beq_iff_eq, decide_eq_true_eq,
    ← BitVec.toNat_inj, BitVec.lt_def]
  rfl

theorem InRange.loaded_isSome (h : t.InRange) :
    (t.loaded data true).isSome ↔ 10 ≤ t.bitCount.toNat ∧ t.bitDelay = t.bitDelayMax := by
  have hd := h.delay
  have hten : bitCountDone.toNat = 10 := rfl
  rw [loaded_isSome_iff, BitVec.lt_def, BitVec.lt_def, hten, ← BitVec.toNat_inj,
    eq_self_iff_true, and_true]
  omega

theorem loaded_false (t : UartTx) : t.loaded data false = none := by
  simp [loaded]

/-- A request that is not accepted changes nothing. -/
theorem tick_of_loaded_none (hn : t.loaded data req = none) :
    t.tick false data req = t.tick false data false := by
  by_cases h1 : t.bitDelay < t.bitDelayMax
  · rw [t.tick_wait h1, t.tick_wait h1]
  · by_cases h2 : t.bitCount < bitCountDone
    · rw [t.tick_shift h1 h2, t.tick_shift h1 h2]
    · have hreq : req = false := by simpa [loaded, h1, h2] using hn
      rw [hreq]

/-- Until it accepts a byte, a busy transmitter comes one clock closer to idle. -/
theorem InRange.untilIdle_tick (h : t.InRange) (hn : t.loaded data req = none)
    (hi : t.getIdle = false) : (t.tick false data req).untilIdle + 1 = t.untilIdle := by
  rw [tick_of_loaded_none hn]
  obtain ⟨hc, hd⟩ := h
  have hmax := t.bitDelayMax.isLt
  have hmaxCount : bitCountMax.toNat = 17 := rfl
  -- One bit further is one bit time less.
  have hbit : ∀ c < 17, (17 - (c + 1)) * (t.bitDelayMax.toNat + 1) + (t.bitDelayMax.toNat + 1)
      = (17 - c) * (t.bitDelayMax.toNat + 1) := fun c hc ↦ by
    rw [show 17 - c = 17 - (c + 1) + 1 by omega, Nat.succ_mul]
  have hcount : t.bitCount.toNat < 17 → (t.bitCount + 1#5).toNat = t.bitCount.toNat + 1 := by
    intro hlt
    simp only [BitVec.toNat_add, BitVec.toNat_ofNat]
    omega
  unfold untilIdle
  by_cases h1 : t.bitDelay < t.bitDelayMax
  · rw [t.tick_wait h1]
    rw [BitVec.lt_def] at h1
    simp only [BitVec.toNat_add, BitVec.toNat_ofNat]
    omega
  · have hend : t.bitDelay.toNat = t.bitDelayMax.toNat := by
      rw [BitVec.lt_def] at h1
      omega
    have hlt : t.bitCount.toNat < 17 := by
      refine Nat.lt_of_le_of_ne hc fun h17 ↦ ?_
      have := getIdle_iff.mpr ⟨h17, BitVec.eq_of_toNat_eq hend⟩
      exact absurd this (by rw [hi]; exact Bool.false_ne_true)
    have := hbit t.bitCount.toNat hlt
    by_cases h2 : t.bitCount < bitCountDone
    · rw [t.tick_shift h1 h2]
      simp only [hcount hlt, BitVec.toNat_ofNat]
      omega
    · rw [t.tick_stop h1 h2, if_pos (by rw [BitVec.lt_def, hmaxCount]; exact hlt)]
      simp only [hcount hlt, BitVec.toNat_ofNat]
      omega

/-- Until it accepts a byte, an idle transmitter stays as it is. -/
theorem tick_of_idle (hn : t.loaded data req = none) (hi : t.getIdle = true) :
    t.tick false data req = t := by
  obtain ⟨hc, hd⟩ := getIdle_iff.mp hi
  rw [tick_of_loaded_none hn, t.tick_stop, if_neg]
  · rw [BitVec.lt_def, hc]
    decide
  · rw [hd]
    exact BitVec.lt_irrefl _
  · rw [BitVec.lt_def, hc]
    decide

theorem InRange.untilIdle_tick_le (h : t.InRange) (hn : t.loaded data req = none) :
    (t.tick false data req).untilIdle ≤ t.untilIdle := by
  cases hi : t.getIdle with
  | true => rw [tick_of_idle hn hi]
  | false =>
    have := h.untilIdle_tick hn hi
    omega

/-- The transmitter is within the ten bits of a frame. -/
structure Sending (t : UartTx) : Prop where
  range : t.InRange
  count : t.bitCount.toNat ≤ 10

/-- While a frame is sent, `get_ready` and the load condition agree. -/
theorem Sending.loaded_isSome (h : t.Sending) :
    (t.loaded data true).isSome ↔ t.getReady = true := by
  have := h.count
  rw [h.range.loaded_isSome, getReady_iff, ← BitVec.toNat_inj]
  omega

/-- An idle transmitter is ready, and loads what it is offered. -/
theorem loaded_of_idle (hi : t.getIdle = true) : t.loaded data true = some data := by
  obtain ⟨hc, hd⟩ := getIdle_iff.mp hi
  rw [loaded_eq_some_iff, BitVec.lt_def, BitVec.lt_def, hd, hc]
  exact ⟨Nat.lt_irrefl _, by decide, rfl, rfl⟩

theorem ready_of_idle (hi : t.getIdle = true) : t.getReady = true :=
  getReady_iff.mpr (.inr (by rw [(getIdle_iff.mp hi).1]; decide))

theorem Sending.of_loaded {b : BitVec 8} (h : t.loaded data req = some b) :
    (t.tick false data req).Sending := by
  rw [t.tick_of_loaded h]
  exact ⟨⟨Nat.zero_le _, Nat.zero_le _⟩, Nat.zero_le _⟩

/-- Until the next load a transmitter goes on with its frame. -/
theorem Sending.tick (h : t.Sending) (hn : t.loaded data true = none) :
    (t.tick false data true).Sending := by
  refine ⟨h.range.tick false, ?_⟩
  have hcount := h.count
  by_cases h1 : t.bitDelay < t.bitDelayMax
  · rw [t.tick_wait h1]
    exact h.count
  · by_cases h2 : t.bitCount < bitCountDone
    · rw [t.tick_shift h1 h2]
      rw [BitVec.lt_def, show bitCountDone.toNat = 10 from rfl] at h2
      simp only [BitVec.toNat_add, BitVec.toNat_ofNat]
      omega
    · simp [loaded, h1, h2] at hn

end UartTx

/-! ## The client, state by state -/

namespace UartHello

variable {h : UartHello} {ready idle : Bool}

theorem tick_wait (hs : h.state = wait) :
    h.tick false ready idle = if idle then { h with state := send } else h := by
  cases idle <;> simp [tick, hs, wait, send, done]

theorem tick_send (hs : h.state = send) :
    h.tick false ready idle =
      if ready then
        if h.cursor = 511#9 then { h with state := done } else { h with cursor := h.cursor + 1#9 }
      else h := by
  cases ready <;> simp [tick, hs, wait, send, done]

theorem tick_done (hs : h.state = done) :
    h.tick false ready idle =
      { h with cursor := 0#9, state := if h.repeatMsg then wait else done } := by
  cases hr : h.repeatMsg <;> simp [tick, hs, wait, send, done, hr]

@[simp] theorem memory_tick (reset : Bool) : (h.tick reset ready idle).memory = h.memory := by
  unfold tick
  split_ifs <;> rfl

@[simp] theorem repeatMsg_tick (reset : Bool) :
    (h.tick reset ready idle).repeatMsg = h.repeatMsg := by
  unfold tick
  split_ifs <;> rfl

/-- The first `k` bytes of the message, repeated as often as it takes. -/
def message (h : UartHello) (k : ℕ) : List (BitVec 8) :=
  (List.range k).map fun i ↦ h.memory (BitVec.ofNat 9 i)

@[simp] theorem length_message (h : UartHello) (k : ℕ) : (h.message k).length = k := by
  rw [message, List.length_map, List.length_range]

theorem message_succ (h : UartHello) (k : ℕ) :
    h.message (k + 1) = h.message k ++ [h.memory (BitVec.ofNat 9 k)] := by
  rw [message, List.range_succ, List.map_append]
  rfl

/-- From `h` to `h'` the client moves on to the next byte, or is done. -/
def Advances (h h' : UartHello) : Prop :=
  h'.cursor.toNat = h.cursor.toNat + 1 ∨ (h.getDone = false ∧ h'.getDone = true)

theorem not_advances_of_le {h' : UartHello} (hcur : h'.cursor.toNat ≤ h.cursor.toNat)
    (hdone : h.getDone = false → h'.getDone = false) : ¬h.Advances h' := by
  rintro (hadv | ⟨hnot, hnow⟩)
  · rw [hadv] at hcur
    exact Nat.not_succ_le_self _ hcur
  · rw [hdone hnot] at hnow
    exact Bool.false_ne_true hnow

end UartHello

/-! ## The client and its transmitter -/

/-- The hello client and the transmitter it feeds. -/
structure Client where
  hello : UartHello
  tx : UartTx

namespace Client

/-- One clock in which the bus does not write the transmitter. -/
def tick (reset : Bool) (c : Client) : Client where
  tx := c.tx.tick reset c.hello.getData c.hello.getRequest
  hello := c.hello.tick reset c.tx.getReady c.tx.getIdle

/-- The byte the transmitter loads in this clock. -/
def loaded (c : Client) : Option (BitVec 8) := c.tx.loaded c.hello.getData c.hello.getRequest

/-- The joint invariant after `k` loads. -/
inductive Phase (c : Client) (k : ℕ) : Prop where
  | wait (state : c.hello.state = UartHello.wait) (cursor : c.hello.cursor = 0#9)
      (tx : c.tx.InRange) (start : k % 512 = 0) (once : c.hello.repeatMsg = false → k = 0)
  | send (state : c.hello.state = UartHello.send) (cursor : c.hello.cursor.toNat = k % 512)
      (tx : (c.tx.Sending ∧ k % 512 ≠ 0) ∨ (c.tx.getIdle = true ∧ k % 512 = 0))
      (once : c.hello.repeatMsg = false → k < 512)
  | done (state : c.hello.state = UartHello.done) (tx : c.tx.InRange) (finish : k % 512 = 0)
      (once : c.hello.repeatMsg = false → k = 512)

variable {c : Client} {k : ℕ}

theorem phase_reset (c : Client) : (c.tick true).Phase 0 :=
  .wait (by simp [tick, UartHello.tick]) (by simp [tick, UartHello.tick])
    (c.tx.inRange_reset c.hello.getData c.hello.getRequest) rfl (fun _ ↦ rfl)

/-- Outside `SEND` nothing is loaded. -/
theorem loaded_of_not_send (hs : c.hello.state ≠ UartHello.send) : c.loaded = none := by
  have hreq : c.hello.getRequest = false := by
    rw [UartHello.getRequest, beq_eq_false_iff_ne]
    exact hs
  rw [loaded, hreq]
  exact c.tx.loaded_false

/-- In `SEND` the client takes for accepted what the transmitter accepts. -/
theorem ready_iff_loaded (hs : c.hello.state = UartHello.send)
    (htx : (c.tx.Sending ∧ k % 512 ≠ 0) ∨ (c.tx.getIdle = true ∧ k % 512 = 0)) :
    c.tx.getReady = true ↔ c.loaded.isSome := by
  have hreq : c.hello.getRequest = true := by simp [UartHello.getRequest, hs]
  rw [loaded, hreq]
  rcases htx with ⟨h, -⟩ | ⟨hi, -⟩
  · exact h.loaded_isSome.symm
  · simp [UartTx.ready_of_idle hi, UartTx.loaded_of_idle hi]

/-- Clocks until the next load, at most. -/
def untilLoad (c : Client) : ℕ :=
  c.tx.untilIdle + if c.hello.state = UartHello.send then 0
    else if c.hello.state = UartHello.wait then 1 else 2

theorem inRange_of_phase (h : c.Phase k) : c.tx.InRange := by
  cases h with
  | wait _ _ htx _ _ => exact htx
  | send _ _ htx _ =>
    rcases htx with ⟨hs, -⟩ | ⟨hi, -⟩
    · exact hs.range
    · obtain ⟨hc, hd⟩ := UartTx.getIdle_iff.mp hi
      exact ⟨Nat.le_of_eq hc, Nat.le_of_eq (congrArg BitVec.toNat hd)⟩
  | done _ htx _ _ => exact htx

/-- A clock with a load: the byte is the one at the cursor, and the client moves
on. -/
structure Sends (c : Client) (k : ℕ) (b : BitVec 8) : Prop where
  phase : (c.tick false).Phase (k + 1)
  cursor : c.hello.cursor = BitVec.ofNat 9 k
  byte : b = c.hello.getData
  moves : c.hello.Advances (c.tick false).hello
  first : k % 512 = 0 → c.tx.getIdle = true

/-- At the last byte the client is done, else it goes on to the next one. -/
theorem hello_tick_of_loaded {b : BitVec 8} (hs : c.hello.state = UartHello.send)
    (htx : (c.tx.Sending ∧ k % 512 ≠ 0) ∨ (c.tx.getIdle = true ∧ k % 512 = 0))
    (hl : c.loaded = some b) :
    (c.tick false).hello = if c.hello.cursor = 511#9
      then { c.hello with state := UartHello.done }
      else { c.hello with cursor := c.hello.cursor + 1#9 } := by
  have hready : c.tx.getReady = true := (ready_iff_loaded hs htx).mpr (by rw [hl]; rfl)
  rw [tick, UartHello.tick_send hs, if_pos hready]

/-- Behind the byte that is loaded comes the next one. -/
theorem phase_tick_of_loaded {b : BitVec 8} (hs : c.hello.state = UartHello.send)
    (hcur : c.hello.cursor.toNat = k % 512)
    (htx : (c.tx.Sending ∧ k % 512 ≠ 0) ∨ (c.tx.getIdle = true ∧ k % 512 = 0))
    (honce : c.hello.repeatMsg = false → k < 512) (hl : c.loaded = some b) :
    (c.tick false).Phase (k + 1) := by
  have hhello := hello_tick_of_loaded hs htx hl
  have hsending : (c.tick false).tx.Sending := UartTx.Sending.of_loaded hl
  by_cases hlast : c.hello.cursor = 511#9
  · rw [if_pos hlast] at hhello
    have h511 : k % 512 = 511 := by rw [← hcur, hlast]; rfl
    refine .done (by rw [hhello]) hsending.range (by omega) fun hrep ↦ ?_
    rw [hhello] at hrep
    have := honce hrep
    omega
  · rw [if_neg hlast] at hhello
    have hne : k % 512 ≠ 511 := fun h511 ↦ hlast (BitVec.eq_of_toNat_eq (hcur.trans h511))
    refine .send (by rw [hhello]; exact hs) ?_ (.inl ⟨hsending, by omega⟩) fun hrep ↦ ?_
    · rw [hhello, BitVec.toNat_add, hcur, BitVec.toNat_ofNat]
      omega
    · rw [hhello] at hrep
      have := honce hrep
      omega

/-- The client gets on when a byte is loaded. -/
theorem advances_of_loaded {b : BitVec 8} (hs : c.hello.state = UartHello.send)
    (htx : (c.tx.Sending ∧ k % 512 ≠ 0) ∨ (c.tx.getIdle = true ∧ k % 512 = 0))
    (hl : c.loaded = some b) : c.hello.Advances (c.tick false).hello := by
  have hhello := hello_tick_of_loaded hs htx hl
  by_cases hlast : c.hello.cursor = 511#9
  · rw [hhello, if_pos hlast]
    exact .inr ⟨by simp [UartHello.getDone, hs, UartHello.send, UartHello.done], rfl⟩
  · rw [hhello, if_neg hlast]
    have hne : c.hello.cursor.toNat ≠ 511 := fun h511 ↦ hlast (BitVec.eq_of_toNat_eq h511)
    have hlt := c.hello.cursor.isLt
    refine .inl ?_
    rw [BitVec.toNat_add, BitVec.toNat_ofNat]
    omega

theorem Phase.sends {b : BitVec 8} (h : c.Phase k) (hl : c.loaded = some b) : c.Sends k b := by
  have hsend : c.hello.state = UartHello.send := by
    by_contra hs
    rw [loaded_of_not_send hs] at hl
    exact absurd hl (by simp)
  cases h with
  | wait hs => exact absurd (hsend.symm.trans hs) (by decide)
  | done hs => exact absurd (hsend.symm.trans hs) (by decide)
  | send hs hcur htx honce =>
    refine ⟨phase_tick_of_loaded hs hcur htx honce hl,
      BitVec.eq_of_toNat_eq (by rw [hcur, BitVec.toNat_ofNat]),
      ((c.tx.loaded_eq_some_iff.mp hl).2.2.2).symm, advances_of_loaded hs htx hl, fun hk ↦ ?_⟩
    rcases htx with ⟨-, hne⟩ | ⟨hi, -⟩
    · exact absurd hk hne
    · exact hi

/-- A clock without a load: the client keeps its place, and unless it is done for
good the next load comes closer. -/
structure Stalls (c : Client) (k : ℕ) : Prop where
  phase : (c.tick false).Phase k
  stays : ¬c.hello.Advances (c.tick false).hello
  cursor : (c.tick false).hello.cursor = c.hello.cursor ∨
    (c.hello.getDone = true ∧ (c.tick false).hello.cursor = 0#9)
  nearer : (c.hello.state = UartHello.done ∧ c.hello.repeatMsg = false) ∨
    (c.tick false).untilLoad < c.untilLoad

/-- The client waits for a busy transmitter. -/
theorem Phase.stalls_of_busy (hphase : (c.tick false).Phase k) (hrange : c.tx.InRange)
    (hn : c.loaded = none) (hbusy : c.tx.getIdle = false)
    (hhello : (c.tick false).hello = c.hello) : c.Stalls k where
  phase := hphase
  stays := UartHello.not_advances_of_le (by rw [hhello]) (by rw [hhello]; exact id)
  cursor := .inl (by rw [hhello])
  nearer := by
    have hless : (c.tick false).tx.untilIdle + 1 = c.tx.untilIdle :=
      hrange.untilIdle_tick hn hbusy
    refine .inr ?_
    rw [untilLoad, untilLoad, hhello]
    omega

theorem stalls_of_wait (hs : c.hello.state = UartHello.wait) (hcur : c.hello.cursor = 0#9)
    (hrange : c.tx.InRange) (hk : k % 512 = 0) (honce : c.hello.repeatMsg = false → k = 0)
    (hn : c.loaded = none) : c.Stalls k := by
  cases hi : c.tx.getIdle with
  | true =>
    have hhello : (c.tick false).hello = { c.hello with state := UartHello.send } := by
      rw [tick, UartHello.tick_wait hs, if_pos hi]
    have htx : (c.tick false).tx = c.tx := UartTx.tick_of_idle hn hi
    constructor
    · refine .send (by rw [hhello]) (by rw [hhello, hk]; exact congrArg BitVec.toNat hcur)
        (.inr ⟨by rw [htx]; exact hi, hk⟩) fun hrep ↦ ?_
      rw [hhello] at hrep
      rw [honce hrep]
      exact Nat.succ_pos _
    · refine UartHello.not_advances_of_le (by rw [hhello]) fun _ ↦ ?_
      rw [hhello]
      rfl
    · exact .inl (by rw [hhello])
    · refine .inr ?_
      rw [untilLoad, untilLoad, htx, hhello, hs]
      exact Nat.lt_succ_self _
  | false =>
    have hhello : (c.tick false).hello = c.hello := by
      rw [tick, UartHello.tick_wait hs, if_neg (by rw [hi]; exact Bool.false_ne_true)]
    have hphase : (c.tick false).Phase k :=
      .wait (by rw [hhello]; exact hs) (by rw [hhello]; exact hcur) (hrange.tick false) hk
        (by rw [hhello]; exact honce)
    exact hphase.stalls_of_busy hrange hn hi hhello

theorem stalls_of_send (hs : c.hello.state = UartHello.send)
    (hcur : c.hello.cursor.toNat = k % 512)
    (htx : (c.tx.Sending ∧ k % 512 ≠ 0) ∨ (c.tx.getIdle = true ∧ k % 512 = 0))
    (honce : c.hello.repeatMsg = false → k < 512) (hrange : c.tx.InRange)
    (hn : c.loaded = none) : c.Stalls k := by
  have hready : c.tx.getReady = false := by
    rw [← Bool.not_eq_true, ready_iff_loaded hs htx, hn]
    exact Bool.false_ne_true
  have hreq : c.hello.getRequest = true := by simp [UartHello.getRequest, hs]
  have hidle : c.tx.getIdle = false := by
    rw [← Bool.not_eq_true]
    intro hi
    rw [UartTx.ready_of_idle hi] at hready
    exact Bool.noConfusion hready
  have hhello : (c.tick false).hello = c.hello := by
    rw [tick, UartHello.tick_send hs, if_neg (by rw [hready]; exact Bool.false_ne_true)]
  have hphase : (c.tick false).Phase k := by
    refine .send (by rw [hhello]; exact hs) (by rw [hhello]; exact hcur) ?_
      (by rw [hhello]; exact honce)
    rcases htx with ⟨hsend, hk⟩ | ⟨hi, -⟩
    · refine .inl ⟨?_, hk⟩
      rw [loaded, hreq] at hn
      have hnext := hsend.tick hn
      rwa [← hreq] at hnext
    · rw [hidle] at hi
      exact Bool.noConfusion hi
  exact hphase.stalls_of_busy hrange hn hidle hhello

theorem stalls_of_done (hs : c.hello.state = UartHello.done) (hrange : c.tx.InRange)
    (hk : k % 512 = 0) (honce : c.hello.repeatMsg = false → k = 512) (hn : c.loaded = none) :
    c.Stalls k := by
  have hhello : (c.tick false).hello =
      { c.hello with
        cursor := 0#9
        state := if c.hello.repeatMsg then UartHello.wait else UartHello.done } :=
    UartHello.tick_done hs
  have hdone : c.hello.getDone = true := by simp [UartHello.getDone, hs]
  have hle : (c.tick false).tx.untilIdle ≤ c.tx.untilIdle := hrange.untilIdle_tick_le hn
  refine ⟨?_, UartHello.not_advances_of_le ?_ fun hnot ↦ ?_, .inr ⟨hdone, by rw [hhello]⟩, ?_⟩
  · cases hrep : c.hello.repeatMsg with
    | true =>
      rw [hrep, if_pos rfl] at hhello
      refine .wait (by rw [hhello]) (by rw [hhello]) (hrange.tick false) hk fun h ↦ ?_
      rw [hhello, hrep] at h
      exact Bool.noConfusion h
    | false =>
      rw [hrep, if_neg Bool.false_ne_true] at hhello
      exact .done (by rw [hhello]) (hrange.tick false) hk fun _ ↦ honce hrep
  · rw [hhello]
    exact Nat.zero_le _
  · rw [hdone] at hnot
    exact Bool.noConfusion hnot
  · cases hrep : c.hello.repeatMsg with
    | true =>
      rw [hrep, if_pos rfl] at hhello
      refine .inr ?_
      rw [untilLoad, untilLoad, hhello, hs]
      simp only [UartHello.wait, UartHello.send, UartHello.done, BitVec.reduceEq, if_true,
        if_false]
      omega
    | false => exact .inl ⟨hs, rfl⟩

theorem Phase.stalls (h : c.Phase k) (hn : c.loaded = none) : c.Stalls k := by
  have hrange := inRange_of_phase h
  cases h with
  | wait hs hcur _ hk honce => exact stalls_of_wait hs hcur hrange hk honce hn
  | send hs hcur htx honce => exact stalls_of_send hs hcur htx honce hrange hn
  | done hs _ hk honce => exact stalls_of_done hs hrange hk honce hn

/-! ## Whole runs -/

/-- The client and the transmitter `n` clocks after a reset. -/
def states (c : Client) (n : ℕ) : Client :=
  run (fun (_ : Unit) ↦ tick false) (fun _ ↦ ()) (c.tick true) n

/-- The byte loaded in clock `n`. -/
def loads (c : Client) (n : ℕ) : Option (BitVec 8) := (c.states n).loaded

theorem states_succ (c : Client) (n : ℕ) : c.states (n + 1) = (c.states n).tick false := rfl

theorem memory_tick (c : Client) (reset : Bool) :
    (c.tick reset).hello.memory = c.hello.memory :=
  UartHello.memory_tick reset

theorem repeatMsg_tick (c : Client) (reset : Bool) :
    (c.tick reset).hello.repeatMsg = c.hello.repeatMsg :=
  UartHello.repeatMsg_tick reset

theorem memory_states (c : Client) (n : ℕ) : (c.states n).hello.memory = c.hello.memory :=
  run_invariant (P := fun c' : Client ↦ c'.hello.memory = c.hello.memory) (c.memory_tick true)
    (fun _ c' h ↦ (c'.memory_tick false).trans h) n

theorem repeatMsg_states (c : Client) (n : ℕ) :
    (c.states n).hello.repeatMsg = c.hello.repeatMsg :=
  run_invariant (P := fun c' : Client ↦ c'.hello.repeatMsg = c.hello.repeatMsg)
    (c.repeatMsg_tick true) (fun _ c' h ↦ (c'.repeatMsg_tick false).trans h) n

/-- The bytes loaded so far are a prefix of the message, and the phase knows how
long it is. -/
theorem phase_states (c : Client) (n : ℕ) :
    ∃ k, emitted c.loads n = c.hello.message k ∧ (c.states n).Phase k := by
  induction n with
  | zero => exact ⟨0, rfl, c.phase_reset⟩
  | succ n ih =>
    obtain ⟨k, hk, hphase⟩ := ih
    cases hl : c.loads n with
    | none =>
      rw [emitted_succ_none hl]
      exact ⟨k, hk, (hphase.stalls hl).phase⟩
    | some b =>
      have ⟨hnext, hcur, hb, _, _⟩ := hphase.sends hl
      rw [emitted_succ_some hl, hk, hb, UartHello.getData, hcur, memory_states]
      exact ⟨k + 1, (c.hello.message_succ k).symm, hnext⟩

theorem phase_of_message (c : Client) {n : ℕ} (h : emitted c.loads n = c.hello.message k) :
    (c.states n).Phase k := by
  obtain ⟨j, hj, hphase⟩ := c.phase_states n
  obtain rfl : j = k := by
    rw [← c.hello.length_message j, ← hj, h, c.hello.length_message]
  exact hphase

/-- As long as there is something left to send, it is sent. -/
theorem exists_message (c : Client) {k : ℕ} (hk : c.hello.repeatMsg = true ∨ k ≤ 512) :
    ∃ n, emitted c.loads n = c.hello.message k := by
  induction k with
  | zero => exact ⟨0, rfl⟩
  | succ k ih =>
    obtain ⟨n, hn⟩ := ih (hk.imp_right Nat.le_of_succ_le)
    have hμ : ∀ m ≥ n, emitted c.loads m = emitted c.loads n → c.loads m = none →
        (c.states (m + 1)).untilLoad < (c.states m).untilLoad := by
      intro m _ hm hl
      have hphase := c.phase_of_message (hm.trans hn)
      rcases (hphase.stalls hl).nearer with ⟨hs, hrep⟩ | hlt
      · cases hphase with
        | wait hs' => exact absurd (hs.symm.trans hs') (by decide)
        | send hs' => exact absurd (hs.symm.trans hs') (by decide)
        | done _ _ _ honce =>
          have h512 := honce hrep
          rw [repeatMsg_states] at hrep
          rcases hk with hk | hk
          · exact absurd (hrep.symm.trans hk) Bool.false_ne_true
          · omega
      · exact hlt
    obtain ⟨m, _, hm, hs⟩ := exists_emit (fun m ↦ (c.states m).untilLoad) hμ
    obtain ⟨b, hb⟩ := Option.isSome_iff_exists.mp hs
    have ⟨_, hcur, hget, _, _⟩ := (c.phase_of_message (hm.trans hn)).sends hb
    refine ⟨m + 1, ?_⟩
    rw [emitted_succ_some hb, hm, hn, hget, UartHello.getData, hcur, memory_states,
      ← UartHello.message_succ]

/-- A client that does not repeat stops after one message. -/
theorem length_loads_le (c : Client) (hrep : c.hello.repeatMsg = false) (n : ℕ) :
    (emitted c.loads n).length ≤ 512 := by
  obtain ⟨k, hk, hphase⟩ := c.phase_states n
  rw [hk, UartHello.length_message]
  rw [← repeatMsg_states c n] at hrep
  cases hphase with
  | wait _ _ _ _ honce => exact (honce hrep).le.trans (Nat.zero_le _)
  | send _ _ _ honce => exact Nat.le_of_lt (honce hrep)
  | done _ _ _ honce => exact (honce hrep).le

/-- The first byte of a message is loaded by an idle transmitter. -/
theorem idle_of_first (c : Client) {n : ℕ} {b : BitVec 8} (hl : c.loads n = some b)
    (h : (emitted c.loads n).length % 512 = 0) : (c.states n).tx.getIdle = true := by
  obtain ⟨k, hk, hphase⟩ := c.phase_states n
  rw [hk, UartHello.length_message] at h
  exact (hphase.sends hl).first h

/-- What is loaded is the byte at the cursor. -/
theorem loads_of_isSome (c : Client) {n : ℕ} (h : (c.loads n).isSome) :
    c.loads n = some (c.states n).hello.getData := by
  obtain ⟨b, hb⟩ := Option.isSome_iff_exists.mp h
  obtain ⟨k, -, hphase⟩ := c.phase_states n
  rw [hb, (hphase.sends hb).byte]

/-- The client moves on exactly with the loads. -/
theorem advances_iff_loads (c : Client) (n : ℕ) :
    (c.states n).hello.Advances (c.states (n + 1)).hello ↔ (c.loads n).isSome := by
  obtain ⟨k, -, hphase⟩ := c.phase_states n
  cases hl : c.loads n with
  | none => exact iff_of_false (hphase.stalls hl).stays (by simp)
  | some b => exact iff_of_true (hphase.sends hl).moves rfl

/-- Without a load the cursor stays, but for the return to the start in `DONE`. -/
theorem cursor_of_loads_none (c : Client) {n : ℕ} (hl : c.loads n = none) :
    (c.states (n + 1)).hello.cursor = (c.states n).hello.cursor ∨
      ((c.states n).hello.getDone = true ∧ (c.states (n + 1)).hello.cursor = 0#9) := by
  obtain ⟨k, -, hphase⟩ := c.phase_states n
  exact (hphase.stalls hl).cursor

end Client

end Pinwheel
