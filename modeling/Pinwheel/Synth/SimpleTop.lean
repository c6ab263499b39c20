import Pinwheel.Synth.Lossless

/-!
# The simple UART at work

`synth/simple_uart/simple_top.sv`: `simple_message` sends six bytes over and over, with a
pause before each round, and `byte_sink` has the byte that came last.  Both are at the two
ends of the link, and what the sender and the link agree on by their handshake arrives.
-/

namespace Pinwheel

open Clocked SimpleUart

/-- The registers of `simple_message`, with the contents of `text`, of which the first six
are there. -/
structure SimpleMessage where
  text : BitVec 3 → BitVec 8
  delay : BitVec 8
  cursor : BitVec 3

namespace SimpleMessage

def delayMax : BitVec 8 := 20#8

variable (reset ready : Bool) (m : SimpleMessage)

/-- `_out_valid`. -/
def outValid : Bool := !reset && m.delay == 0#8

/-- `_out`. -/
def out : BitVec 8 := if reset then 0#8 else if 0#8 < m.delay then 0#8 else m.text m.cursor

/-- `delay_` and `cursor_`. -/
def next : SimpleMessage :=
  if reset then { m with delay := delayMax, cursor := 0#3 }
  else if 0#8 < m.delay then { m with delay := m.delay - 1#8 }
  else if m.outValid reset ∧ ready then
    { m with
      delay := if m.cursor = 5#3 then delayMax - 1#8 else m.delay
      cursor := if m.cursor = 5#3 then 0#3 else m.cursor + 1#3 }
  else m

/-- What is offered to the transmitter. -/
def offer : SimpleIn := ⟨m.out reset, m.outValid reset⟩

/-- The first `k` bytes that are to be sent. -/
def message (k : ℕ) : List (BitVec 8) :=
  (List.range k).map fun i ↦ m.text (BitVec.ofNat 3 (i % 6))

end SimpleMessage

/-- The register of `byte_sink`, which has no reset. -/
structure ByteSink where
  data : BitVec 8
deriving DecidableEq, Repr

def ByteSink.next (input : BitVec 8) (valid : Bool) (s : ByteSink) : ByteSink :=
  if valid then ⟨input⟩ else s

/-- `simple_top`. -/
structure SimpleTop where
  msg : SimpleMessage
  link : SimpleLink
  sink : ByteSink

namespace SimpleTop

variable (clocksPerBit : BitVec 8) (reset : Bool) (top : SimpleTop)

/-- A positive clock edge. -/
def tick : SimpleTop where
  msg := top.msg.next reset (top.link.tx.inReady clocksPerBit reset)
  link := top.link.tick clocksPerBit reset (top.msg.offer reset)
  sink := top.sink.next (top.link.rx.out clocksPerBit reset top.link.tx.out)
    (top.link.rx.outValid clocksPerBit reset top.link.tx.out)

/-- The state `n` clocks after a reset. -/
def states (n : ℕ) : SimpleTop :=
  run (fun (_ : Unit) ↦ tick clocksPerBit false) (fun _ ↦ ()) (top.tick clocksPerBit true) n

/-- The byte that the transmitter takes in clock `n`. -/
def accepts (n : ℕ) : Option (BitVec 8) :=
  (top.states clocksPerBit n).link.accepted clocksPerBit false
    ((top.states clocksPerBit n).msg.offer false)

/-- The byte that the sink gets in clock `n`. -/
def presents (n : ℕ) : Option (BitVec 8) :=
  (top.states clocksPerBit n).link.presented clocksPerBit false

theorem states_succ (n : ℕ) : top.states clocksPerBit (n + 1) =
    (top.states clocksPerBit n).tick clocksPerBit false := rfl

/-- A run contains a run of the link. -/
theorem link_states (n : ℕ) : (top.states clocksPerBit n).link =
    SimpleLink.states clocksPerBit top.link (top.msg.offer true)
      (fun m ↦ (top.states clocksPerBit m).msg.offer false) n := by
  induction n with
  | zero => rfl
  | succ n ih => rw [states_succ, SimpleLink.states, run_succ, ← SimpleLink.states, ← ih]; rfl

theorem accepts_eq : top.accepts clocksPerBit = SimpleLink.accepts clocksPerBit top.link
    (top.msg.offer true) (fun m ↦ (top.states clocksPerBit m).msg.offer false) := by
  funext n
  rw [accepts, link_states]
  rfl

theorem presents_eq : top.presents clocksPerBit = SimpleLink.presents clocksPerBit top.link
    (top.msg.offer true) (fun m ↦ (top.states clocksPerBit m).msg.offer false) := by
  funext n
  rw [presents, link_states]
  rfl

end SimpleTop

/-! ## The sender -/

namespace SimpleMessage

variable {m : SimpleMessage} {ready : Bool} {k : ℕ}

@[simp] theorem text_next (reset : Bool) : (m.next reset ready).text = m.text := by
  unfold next
  split_ifs <;> rfl

theorem length_message (m : SimpleMessage) (k : ℕ) : (m.message k).length = k := by
  simp [message]

theorem message_succ (m : SimpleMessage) (k : ℕ) :
    m.message (k + 1) = m.message k ++ [m.text (BitVec.ofNat 3 (k % 6))] := by
  simp [message, List.range_succ]

/-- The cursor after `k` bytes. -/
def Phase (m : SimpleMessage) (k : ℕ) : Prop := m.cursor = BitVec.ofNat 3 (k % 6)

theorem phase_reset (m : SimpleMessage) (ready : Bool) : (m.next true ready).Phase 0 := rfl

theorem Phase.last_iff (h : m.Phase k) : m.cursor = 5#3 ↔ k % 6 = 5 := by
  have hlt : k % 6 < 6 := Nat.mod_lt k (by decide)
  rw [h, ← BitVec.toNat_inj, BitVec.toNat_ofNat, Nat.mod_eq_of_lt (by omega)]
  rfl

/-- There is no pause in a clock in which a byte is offered. -/
theorem not_paused (hvalid : m.outValid false = true) : ¬0#8 < m.delay := by
  rw [outValid, Bool.not_false, Bool.true_and, beq_iff_eq] at hvalid
  rw [hvalid]
  exact BitVec.lt_irrefl _

/-- A byte that is taken is the next one, and the cursor goes on. -/
theorem Phase.next_of_taken (h : m.Phase k) (hvalid : m.outValid false = true)
    (hready : ready = true) :
    m.out false = m.text (BitVec.ofNat 3 (k % 6)) ∧ (m.next false ready).Phase (k + 1) := by
  have hdelay := not_paused hvalid
  constructor
  · rw [out, if_neg Bool.false_ne_true, if_neg hdelay, h]
  · rw [Phase, next, if_neg Bool.false_ne_true, if_neg hdelay, if_pos ⟨hvalid, hready⟩]
    show (if m.cursor = 5#3 then 0#3 else m.cursor + 1#3) = _
    by_cases hlast : k % 6 = 5
    · have hnext : (k + 1) % 6 = 0 := by omega
      rw [if_pos (h.last_iff.mpr hlast), hnext]
    · have hnext : (k + 1) % 6 = k % 6 + 1 := by omega
      rw [if_neg (mt h.last_iff.mp hlast), hnext, h, BitVec.ofNat_add]

/-- A byte that is offered stays until it is taken. -/
theorem next_of_offered (hvalid : m.outValid false = true)
    (h : ¬(m.outValid false = true ∧ ready = true)) : m.next false ready = m := by
  rw [next, if_neg Bool.false_ne_true, if_neg (not_paused hvalid), if_neg h]

/-- A byte that is not taken stays, and the pause before it gets shorter. -/
theorem next_of_not_taken (h : ¬(m.outValid false = true ∧ ready = true)) :
    (m.next false ready).cursor = m.cursor ∧
      (m.next false ready).delay.toNat = m.delay.toNat - 1 := by
  rw [next, if_neg Bool.false_ne_true]
  by_cases hdelay : 0#8 < m.delay
  · rw [if_pos hdelay]
    have hpos : 0 < m.delay.toNat := hdelay
    have := m.delay.isLt
    refine ⟨rfl, ?_⟩
    simp only [BitVec.toNat_sub, BitVec.toNat_ofNat]
    omega
  · have hzero : m.delay.toNat = 0 := Nat.eq_zero_of_not_pos hdelay
    rw [if_neg hdelay, if_neg h, hzero]
    exact ⟨rfl, rfl⟩

end SimpleMessage

/-! ## The transmitter gets ready -/

namespace SimpleTx

variable {clocksPerBit : BitVec 8} {t : SimpleTx} {data : BitVec 8} {valid : Bool}

/-- The delay has not run past its end. -/
def InRange (clocksPerBit : BitVec 8) (t : SimpleTx) : Prop :=
  t.delay.toNat ≤ (delayMax clocksPerBit).toNat

theorem InRange.wait (h : t.InRange clocksPerBit) (hd : t.delay ≠ delayMax clocksPerBit) :
    (t.delay + 1#8).toNat = t.delay.toNat + 1 ∧
      t.delay.toNat + 1 ≤ (delayMax clocksPerBit).toNat := by
  have hlt : t.delay.toNat < (delayMax clocksPerBit).toNat :=
    Nat.lt_of_le_of_ne h fun heq ↦ hd (BitVec.eq_of_toNat_eq heq)
  have := (delayMax clocksPerBit).isLt
  refine ⟨?_, hlt⟩
  simp only [BitVec.toNat_add, BitVec.toNat_ofNat]
  omega

theorem InRange.next (h : t.InRange clocksPerBit) (reset : Bool) :
    (t.next clocksPerBit reset data valid).InRange clocksPerBit := by
  unfold SimpleTx.next
  split_ifs with hreset hd hc hvalid
  · exact Nat.le_refl _
  · obtain ⟨hsucc, hle⟩ := h.wait hd
    exact hsucc.trans_le hle
  · exact Nat.zero_le _
  · exact Nat.zero_le _
  · exact h

/-- Clocks until the transmitter is ready. -/
def untilReady (clocksPerBit : BitVec 8) (t : SimpleTx) : ℕ :=
  (9 - t.count.toNat) * clocksPerBit.toNat + ((delayMax clocksPerBit).toNat - t.delay.toNat)

/-- A transmitter that is not ready comes closer to it. -/
theorem InRange.untilReady_next (h : t.InRange clocksPerBit) (hcpb : clocksPerBit ≠ 0#8)
    (hready : ¬t.ready clocksPerBit = true) (data : BitVec 8) (valid : Bool) :
    (t.next clocksPerBit false data valid).untilReady clocksPerBit <
      t.untilReady clocksPerBit := by
  by_cases hd : t.delay = delayMax clocksPerBit
  · have hc : t.count < countMax := by
      by_contra hc
      exact hready (ready_iff.mpr ⟨hd, hc⟩)
    have hlt : t.count.toNat < 9 := hc
    have hcount : (t.count + 1#8).toNat = t.count.toNat + 1 := by
      simp only [BitVec.toNat_add, BitVec.toNat_ofNat]
      omega
    have hmax : (delayMax clocksPerBit).toNat < clocksPerBit.toNat := by
      rw [toNat_delayMax hcpb]
      exact Nat.sub_lt (toNat_pos hcpb) Nat.one_pos
    have hbits : 9 - t.count.toNat = 9 - (t.count.toNat + 1) + 1 := by omega
    rw [next_shift hd hc, untilReady, untilReady, hcount, hd, hbits, Nat.succ_mul]
    simp only [BitVec.toNat_ofNat]
    omega
  · obtain ⟨hsucc, hle⟩ := h.wait hd
    rw [next_wait hd, untilReady, untilReady, hsucc]
    exact Nat.add_lt_add_left (by omega) _

theorem next_of_not_valid (hready : t.ready clocksPerBit = true) (hvalid : valid = false) :
    t.next clocksPerBit false data valid = t := by
  rw [next_ready hready, if_neg (ne_true_of_eq_false hvalid)]

end SimpleTx

/-! ## Whole runs -/

namespace SimpleTop

variable {clocksPerBit : BitVec 8} {top : SimpleTop} {k n : ℕ} {b : BitVec 8}

theorem text_states (n : ℕ) : (top.states clocksPerBit n).msg.text = top.msg.text := by
  induction n with
  | zero => simp [states, run, tick]
  | succ n ih => simp [states_succ, tick, ih]

theorem inRange_states (n : ℕ) : (top.states clocksPerBit n).link.tx.InRange clocksPerBit := by
  induction n with
  | zero => exact Nat.le_refl _
  | succ n ih => exact ih.next false

/-- A byte is taken if it is valid and the transmitter is ready. -/
theorem accepts_eq_some_iff : top.accepts clocksPerBit n = some b ↔
    ((top.states clocksPerBit n).msg.outValid false = true ∧
      (top.states clocksPerBit n).link.tx.inReady clocksPerBit false = true) ∧
      (top.states clocksPerBit n).msg.out false = b := by
  rw [accepts, SimpleLink.accepted]
  constructor
  · intro h
    obtain ⟨htaken, hsome⟩ := Option.ite_none_right_eq_some.mp h
    exact ⟨htaken, Option.some.inj hsome⟩
  · rintro ⟨htaken, rfl⟩
    exact if_pos htaken

theorem not_taken_of_none (h : top.accepts clocksPerBit n = none) :
    ¬((top.states clocksPerBit n).msg.outValid false = true ∧
      (top.states clocksPerBit n).link.tx.inReady clocksPerBit false = true) := by
  intro htaken
  rw [accepts_eq_some_iff.mpr ⟨htaken, rfl⟩] at h
  exact absurd h (Option.some_ne_none _)

/-- What was taken is a beginning of the message, and the cursor knows how much it is. -/
theorem phase_states (n : ℕ) :
    ∃ k, emitted (top.accepts clocksPerBit) n = top.msg.message k ∧
      (top.states clocksPerBit n).msg.Phase k := by
  induction n with
  | zero => exact ⟨0, rfl, top.msg.phase_reset (top.link.tx.inReady clocksPerBit true)⟩
  | succ n ih =>
    obtain ⟨k, hk, hphase⟩ := ih
    cases ht : top.accepts clocksPerBit n with
    | none =>
      refine ⟨k, (emitted_succ_none ht).trans hk, ?_⟩
      exact (SimpleMessage.next_of_not_taken (not_taken_of_none ht)).1.trans hphase
    | some b =>
      obtain ⟨⟨hvalid, hready⟩, hb⟩ := accepts_eq_some_iff.mp ht
      obtain ⟨hout, hnext⟩ := hphase.next_of_taken hvalid hready
      refine ⟨k + 1, ?_, hnext⟩
      rw [emitted_succ_some ht, hk, SimpleMessage.message_succ, ← hb, hout, text_states]

theorem phase_of_message (h : emitted (top.accepts clocksPerBit) n = top.msg.message k) :
    (top.states clocksPerBit n).msg.Phase k := by
  obtain ⟨j, hj, hphase⟩ := top.phase_states n
  obtain rfl : j = k := by
    rw [← top.msg.length_message j, ← hj, h, SimpleMessage.length_message]
  exact hphase

/-- Clocks until a byte is taken, or fewer. -/
def untilTaken (clocksPerBit : BitVec 8) (top : SimpleTop) : ℕ :=
  top.msg.delay.toNat + top.link.tx.untilReady clocksPerBit

/-- As long as nothing is taken, it comes closer: the sender is in its pause, or the
transmitter is not ready. -/
theorem untilTaken_succ (hcpb : clocksPerBit ≠ 0#8) (h : top.accepts clocksPerBit n = none) :
    (top.states clocksPerBit (n + 1)).untilTaken clocksPerBit <
      (top.states clocksPerBit n).untilTaken clocksPerBit := by
  have hfree := not_taken_of_none h
  have hdelay := (SimpleMessage.next_of_not_taken hfree).2
  rw [states_succ]
  by_cases hready : (top.states clocksPerBit n).link.tx.ready clocksPerBit = true
  · have hvalid : (top.states clocksPerBit n).msg.outValid false = false :=
      Bool.eq_false_iff.mpr fun hv ↦ hfree ⟨hv, hready⟩
    have htx : ((top.states clocksPerBit n).tick clocksPerBit false).link.tx =
        (top.states clocksPerBit n).link.tx := SimpleTx.next_of_not_valid hready hvalid
    have hpos : (top.states clocksPerBit n).msg.delay.toNat ≠ 0 := by
      intro hzero
      have hdelay : (top.states clocksPerBit n).msg.delay = 0#8 := BitVec.eq_of_toNat_eq hzero
      rw [SimpleMessage.outValid, hdelay] at hvalid
      exact absurd hvalid (by decide)
    rw [untilTaken, untilTaken, htx]
    exact Nat.add_lt_add_right (hdelay.trans_lt (Nat.sub_one_lt hpos)) _
  · have hlt := (top.inRange_states n).untilReady_next hcpb hready
      ((top.states clocksPerBit n).msg.out false) ((top.states clocksPerBit n).msg.outValid false)
    exact Nat.add_lt_add_of_le_of_lt (hdelay.trans_le (Nat.sub_le _ _)) hlt

/-- Sooner or later all of the message is taken. -/
theorem exists_message (hcpb : clocksPerBit ≠ 0#8) (k : ℕ) :
    ∃ n, emitted (top.accepts clocksPerBit) n = top.msg.message k := by
  induction k with
  | zero => exact ⟨0, rfl⟩
  | succ k ih =>
    obtain ⟨n, hn⟩ := ih
    obtain ⟨m, -, hm, hsome⟩ := exists_emit
      (fun m ↦ (top.states clocksPerBit m).untilTaken clocksPerBit) fun m (_ : m ≥ n) _ he ↦
        untilTaken_succ hcpb he
    obtain ⟨b, hb⟩ := Option.isSome_iff_exists.mp hsome
    obtain ⟨⟨hvalid, hready⟩, hout⟩ := accepts_eq_some_iff.mp hb
    have hphase := phase_of_message (hm.trans hn)
    refine ⟨m + 1, ?_⟩
    rw [emitted_succ_some hb, hm, hn, SimpleMessage.message_succ, ← hout,
      (hphase.next_of_taken hvalid hready).1, text_states]

/-- The sink has what came last. -/
theorem sink_states (n : ℕ) : (top.states clocksPerBit n).sink.data =
    (emitted (top.presents clocksPerBit) n).getLastD top.sink.data := by
  induction n with
  | zero => rfl
  | succ n ih =>
    have hnext : (top.states clocksPerBit (n + 1)).sink.data =
        (top.presents clocksPerBit n).getD (top.states clocksPerBit n).sink.data := by
      rw [states_succ, tick, presents, SimpleLink.presented]
      dsimp only
      rw [ByteSink.next]
      split_ifs <;> rfl
    rw [hnext]
    cases hp : top.presents clocksPerBit n with
    | none => rw [emitted_succ_none hp, ← ih]; rfl
    | some b => rw [emitted_succ_some hp, List.getLastD_concat]; rfl

/-- **The message arrives**: from a reset on, whatever was in the registers, the sink gets
the six bytes over and over, each in one clock, and sooner or later as many of them as you
like; it has the last of them in its register; and no byte is withdrawn that was offered
to the transmitter. -/
theorem message_arrives (hcpb : clocksPerBit ≠ 0#8) (top : SimpleTop) :
    (∀ n, ∃ k, emitted (top.presents clocksPerBit) n = top.msg.message k ∧
      (top.states clocksPerBit n).sink.data = (top.msg.message k).getLastD top.sink.data) ∧
    (∀ k, ∃ n, emitted (top.presents clocksPerBit) n = top.msg.message k) ∧
    ∀ n, (top.states clocksPerBit n).msg.outValid false = true →
      top.accepts clocksPerBit n = none →
        (top.states clocksPerBit (n + 1)).msg.offer false =
          (top.states clocksPerBit n).msg.offer false := by
  have hline : ∀ n, emitted (top.presents clocksPerBit) n =
      emitted (top.accepts clocksPerBit) (n - SimpleLink.latency clocksPerBit) := by
    intro n
    rw [presents_eq, accepts_eq]
    exact (SimpleLink.frames hcpb).transit.emitted_eq n
  refine ⟨fun n ↦ ?_, fun k ↦ ?_, fun n hvalid hnone ↦ ?_⟩
  · obtain ⟨k, hk, -⟩ := top.phase_states (n - SimpleLink.latency clocksPerBit)
    exact ⟨k, (hline n).trans hk, by rw [sink_states, hline, hk]⟩
  · obtain ⟨n, hn⟩ := exists_message hcpb k
    refine ⟨n + SimpleLink.latency clocksPerBit, ?_⟩
    rw [hline, Nat.add_sub_cancel, hn]
  · exact congrArg (SimpleMessage.offer false)
      (SimpleMessage.next_of_offered hvalid (not_taken_of_none hnone))

/-- The text of `ping.hex`, at three clocks per bit, out of registers that hold anything. -/
def ping : SimpleTop where
  msg := ⟨fun a ↦ ([0x50#8, 0x69#8, 0x6E#8, 0x67#8, 0x21#8, 0x0A#8].getD a.toNat 0#8), 3#8, 7#3⟩
  link := SimpleLink.unreset
  sink := ⟨0#8⟩

theorem message_arrives_ping :
    ∃ n, emitted (ping.presents 3#8) n =
      [0x50#8, 0x69#8, 0x6E#8, 0x67#8, 0x21#8, 0x0A#8, 0x50#8] :=
  (message_arrives (by decide) ping).2.1 7

end SimpleTop

end Pinwheel
