import Pinwheel.Soc.Uart

/-!
# The UART test

`test_uart_metron` of `synth/demo_mc.cpp`: the hello client sends its message once, and
after a fixed number of cycles the checksum of the receiver is compared with a constant.
What the test prints in the meantime is left out.
-/

namespace Pinwheel

open Clocked

/-! ## How long a message takes -/

namespace Client

/-- Clocks per bit. -/
def period (c : Client) : ℕ := c.tx.bitDelayMax.toNat + 1

/-- More clocks than any byte has to wait for: the 18 bit times of a frame with all its
stop bits, and those in which the client goes on. -/
def patience (c : Client) : ℕ := 18 * c.period + 2

variable {c : Client} {k n : ℕ}

theorem period_states (n : ℕ) : (c.states n).period = c.period := by
  refine run_invariant (P := fun c' : Client ↦ c'.period = c.period) ?_ (fun _ c' h ↦ ?_) n
  · simp [period, tick]
  · rw [← h]
    simp [period, tick]

theorem untilLoad_lt (n : ℕ) : (c.states n).untilLoad < c.patience := by
  obtain ⟨k, -, hphase⟩ := c.phase_states n
  obtain ⟨hcount, hdelay⟩ := inRange_of_phase hphase
  have hperiod : (c.states n).tx.bitDelayMax.toNat + 1 = c.period := period_states n
  have hbits : (17 - (c.states n).tx.bitCount.toNat) * c.period ≤ 17 * c.period :=
    Nat.mul_le_mul_right _ (Nat.sub_le _ _)
  rw [untilLoad, UartTx.untilIdle, patience, hperiod]
  split_ifs <;> omega

/-- The message is sent in time. -/
theorem le_length_loads (hk : c.hello.repeatMsg = true ∨ k ≤ 512) :
    k ≤ (emitted c.loads (k * c.patience)).length := by
  refine le_length_emitted (fun m ↦ (c.states m).untilLoad) (b := 18 * c.period + 1)
    (fun m ↦ Nat.le_of_lt_succ (untilLoad_lt m)) fun m hm hnone ↦ ?_
  obtain ⟨j, hj, hphase⟩ := c.phase_states m
  rw [hj, UartHello.length_message] at hm
  rcases (hphase.stalls hnone).nearer with ⟨hdone, hrep⟩ | hlt
  · -- The client is done for good, and has sent all of it.
    cases hphase with
    | wait hs => exact absurd (hdone.symm.trans hs) (by decide)
    | send hs => exact absurd (hdone.symm.trans hs) (by decide)
    | done _ _ _ honce =>
      have hj512 := honce hrep
      rw [repeatMsg_states] at hrep
      rcases hk with hk | hk
      · exact absurd (hrep.symm.trans hk) Bool.false_ne_true
      · omega
  · exact hlt

/-- A client that does not repeat has sent its message from then on. -/
theorem loads_eq_message (hrep : c.hello.repeatMsg = false) (hn : 512 * c.patience ≤ n) :
    emitted c.loads n = c.hello.message 512 := by
  obtain ⟨k, hk, -⟩ := c.phase_states n
  have hmost := c.length_loads_le hrep n
  have hleast := @le_length_loads c 512 (.inr (Nat.le_refl _))
  obtain ⟨m, rfl⟩ := Nat.exists_eq_add_of_le hn
  rw [hk, UartHello.length_message] at hmost
  have hall : 512 ≤ k := by
    rw [← c.hello.length_message k, ← hk, emitted_add, List.length_append]
    exact Nat.le_add_right_of_le hleast
  rw [hk, Nat.le_antisymm hmost hall]

end Client

/-! ## The test -/

namespace Soc

variable {cb db : ℕ} {s : Soc cb db} {rc : DontCare} {dcs : ℕ → DontCare}

/-- Whether the expectation is met, after a number of cycles. -/
def testUartMetron (rc : DontCare) (dcs : ℕ → DontCare) (cycles : ℕ) (checksum : BitVec 32)
    (s : Soc cb db) : Bool :=
  checksum == (states dcs (s.tock rc true) cycles).uart0Rx.getChecksum

/-- **The test finds the sum of the message**, with every program that leaves the
transmitter alone, if it gives the message enough cycles. -/
theorem testUartMetron_eq (hm : s.link.Matched) (h : (s.tock rc true).NoTxWrite dcs)
    (hrep : s.uart0Hello.repeatMsg = false) {cycles : ℕ}
    (hcycles : 512 * (18 * s.link.period + 2) + s.link.latency ≤ cycles) (checksum : BitVec 32) :
    s.testUartMetron rc dcs cycles checksum =
      (checksum == ((s.uart0Hello.message 512).map (BitVec.setWidth 32)).sum) := by
  have hloads : (s.tock rc true).txLoads dcs = s.client.loads :=
    funext fun n ↦ (client_states h n).2
  have hsent := @Client.loads_eq_message s.client (cycles - s.link.latency) hrep
    (Nat.le_sub_of_add_le hcycles)
  rw [testUartMetron, getChecksum_states hm, hloads, hsent]
  rfl

/-- A client that says A, at one clock per bit, beside a program that is `j .`. -/
def saying (repeatMsg : Bool) : Soc 4 4 :=
  { spinning with
    uart0Tx := ⟨Link.fastLink.tx, spinning.uart0Tx.tld⟩
    uart0Rx := ⟨Link.fastLink.rx, spinning.uart0Rx.tld⟩
    uart0Hello := ⟨UartHello.wait, repeatMsg, fun _ ↦ 0x41#8, 0#9⟩ }

theorem testUartMetron_saying :
    (saying false).testUartMetron (.const 0#32) (fun _ ↦ .const 0#32) 12000 0x8200#32 = true := by
  have honly : ((saying false).tock (.const 0#32) true).Only fun i ↦ i.isMem = false :=
    ⟨fun _ ↦ rfl, rfl, rfl, rfl⟩
  have hmatched : (saying false).link.Matched := rfl
  refine (testUartMetron_eq hmatched (honly.noTxWrite _) rfl (by decide) _).trans ?_
  decide +kernel

end Soc

end Pinwheel
