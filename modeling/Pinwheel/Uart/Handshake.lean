import Pinwheel.Uart.Message

/-!
# The handshake of the transmitter

`get_ready` says that the transmitter accepts a byte, and `tick` decides it once
more.  The two conditions differ during the extra stop bits: there `get_ready` is
true all the time, but a byte is loaded at the end of a bit only.
-/

namespace Pinwheel

open Clocked

/-- What the transmitter receives in one clock. -/
structure TxIn where
  reset : Bool
  sendData : BitVec 8
  sendRequest : Bool

namespace UartTx

variable {t : UartTx} {data : BitVec 8} {req : Bool}

/-- The transmitter after `n` clocks. -/
def states (inputs : ℕ → TxIn) (t : UartTx) (n : ℕ) : UartTx :=
  run (fun i t ↦ t.tick i.reset i.sendData i.sendRequest) inputs t n

theorem InRange.states (h : t.InRange) (inputs : ℕ → TxIn) (n : ℕ) :
    (t.states inputs n).InRange :=
  run_invariant h (fun i _ hs ↦ hs.tick i.reset) n

theorem inRange_init (clockRate baudRate : ℕ) : (init clockRate baudRate).InRange :=
  ⟨Nat.le_refl _, Nat.le_refl _⟩

/-- The transmitter is at the point where it loads what it is offered. -/
def CanLoad (t : UartTx) : Prop := ¬t.bitDelay < t.bitDelayMax ∧ ¬t.bitCount < bitCountDone

theorem loaded_isSome_iff_canLoad : (t.loaded data req).isSome ↔ t.CanLoad ∧ req = true := by
  rw [loaded_isSome_iff, CanLoad, and_assoc]

/-- A requested tick loads the byte.  The new bit delay tells a load from a start bit
of the same byte that goes on. -/
def Accepts (t : UartTx) (data : BitVec 8) : Prop :=
  t.tick false data true =
    { t with bitDelay := 0#16, bitCount := 0#5, shift := data.setWidth 9 <<< 1 }

/-- Only the third branch of `tick` does that. -/
theorem accepts_iff : t.Accepts data ↔ t.CanLoad := by
  constructor
  · intro h
    have hd : ¬t.bitDelay < t.bitDelayMax := by
      intro hlt
      rw [Accepts, t.tick_wait hlt] at h
      have hzero := congrArg (BitVec.toNat ∘ bitDelay) h
      have hmax := t.bitDelayMax.isLt
      rw [BitVec.lt_def] at hlt
      simp only [Function.comp_apply, BitVec.toNat_add, BitVec.toNat_ofNat] at hzero
      omega
    refine ⟨hd, fun hlt ↦ ?_⟩
    rw [Accepts, t.tick_shift hd hlt] at h
    have hzero := congrArg (BitVec.toNat ∘ bitCount) h
    rw [BitVec.lt_def, show bitCountDone.toNat = 10 from rfl] at hlt
    simp only [Function.comp_apply, BitVec.toNat_add, BitVec.toNat_ofNat] at hzero
    omega
  · rintro ⟨hd, hc⟩
    exact t.tick_load hd hc

/-- The extra stop bits, but for the last clock of each. -/
def BetweenStops (t : UartTx) : Prop := bitCountDone < t.bitCount ∧ t.bitDelay < t.bitDelayMax

theorem InRange.accepts_iff_ready (h : t.InRange) (data : BitVec 8) :
    (t.Accepts data ↔ t.getReady = true) ↔ ¬t.BetweenStops := by
  have hdelay := h.delay
  have hten : bitCountDone.toNat = 10 := rfl
  rw [accepts_iff, CanLoad, getReady_iff, BetweenStops, BitVec.lt_def, BitVec.lt_def,
    BitVec.lt_def, hten, ← BitVec.toNat_inj]
  omega

/-- **Ready means accepted**, in a state that is reached from a reset, exactly if it is
not within one of the extra stop bits. -/
theorem ready_means_accepted_iff (t : UartTx) (b : BitVec 8) (req : Bool) (inputs : ℕ → TxIn)
    (n : ℕ) (data : BitVec 8) :
    (((t.tick true b req).states inputs n).Accepts data ↔
        ((t.tick true b req).states inputs n).getReady = true) ↔
      ¬((t.tick true b req).states inputs n).BetweenStops :=
  ((inRange_reset t b req).states inputs n).accepts_iff_ready data

/-- At two clocks per bit, a byte is sent and followed by a pause: in the first clock of
the first extra stop bit the transmitter is ready and does not accept. -/
theorem paused_not_accepted :
    let inputs : ℕ → TxIn := fun n ↦ ⟨false, 0x41#8, n == 0⟩
    let t := ((init 2 1).tick true 0#8 false).states inputs 23
    t.getReady = true ∧ (t.tick false 0x42#8 true).bitCount = 11#5 ∧
      ¬(t.Accepts 0x42#8 ↔ t.getReady = true) := by
  intro inputs t
  have hready : t.getReady = true := by decide +kernel
  have hcount : (t.tick false 0x42#8 true).bitCount = 11#5 := by decide +kernel
  refine ⟨hready, hcount, fun h ↦ ?_⟩
  have hload := congrArg bitCount (h.mpr hready)
  rw [hcount] at hload
  exact absurd hload (show ¬11#5 = 0#5 by decide)

end UartTx

end Pinwheel
