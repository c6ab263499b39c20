import Mathlib.Tactic.SplitIfs
import Pinwheel.Uart.Rx
import Pinwheel.Uart.Tx

/-!
# The branches of the two UART ticks

Each `tick` is a chain of `else if`s.  Here is what each branch does, with the
event that makes it worth telling apart: `loaded` for the byte the transmitter
takes, `stored` for the byte the receiver completes.
-/

namespace Pinwheel

/-! ## The transmitter, branch by branch -/

namespace UartTx

variable (t : UartTx) {data : BitVec 8} {req : Bool}

theorem tick_wait (h : t.bitDelay < t.bitDelayMax) :
    t.tick false data req = { t with bitDelay := t.bitDelay + 1#16 } := by
  simp [tick, h]

theorem tick_shift (hd : ¬t.bitDelay < t.bitDelayMax) (hc : t.bitCount < bitCountDone) :
    t.tick false data req =
      { t with
        bitDelay := 0#16
        bitCount := t.bitCount + 1#5
        shift := (t.shift >>> 1) ||| 0x100#9 } := by
  simp [tick, hd, hc]

theorem tick_load (hd : ¬t.bitDelay < t.bitDelayMax) (hc : ¬t.bitCount < bitCountDone) :
    t.tick false data true =
      { t with bitDelay := 0#16, bitCount := 0#5, shift := data.setWidth 9 <<< 1 } := by
  simp [tick, hd, hc]

theorem tick_stop (hd : ¬t.bitDelay < t.bitDelayMax) (hc : ¬t.bitCount < bitCountDone) :
    t.tick false data false =
      if t.bitCount < bitCountMax then { t with bitDelay := 0#16, bitCount := t.bitCount + 1#5 }
      else t := by
  simp [tick, hd, hc]

/-- The byte `tick` loads into the shift register, if it takes that branch. -/
def loaded (sendData : BitVec 8) (sendRequest : Bool) : Option (BitVec 8) :=
  if t.bitDelay < t.bitDelayMax then none
  else if t.bitCount < bitCountDone then none
  else if sendRequest then some sendData
  else none

theorem loaded_eq_some_iff {b : BitVec 8} :
    t.loaded data req = some b ↔
      ¬t.bitDelay < t.bitDelayMax ∧ ¬t.bitCount < bitCountDone ∧ req = true ∧ data = b := by
  unfold loaded
  split_ifs <;> simp [*]

theorem loaded_isSome_iff :
    (t.loaded data req).isSome ↔
      ¬t.bitDelay < t.bitDelayMax ∧ ¬t.bitCount < bitCountDone ∧ req = true := by
  unfold loaded
  split_ifs <;> simp [*]

theorem tick_of_loaded {b : BitVec 8} (h : t.loaded data req = some b) :
    t.tick false data req =
      { t with bitDelay := 0#16, bitCount := 0#5, shift := b.setWidth 9 <<< 1 } := by
  obtain ⟨hd, hc, rfl, rfl⟩ := t.loaded_eq_some_iff.mp h
  exact t.tick_load hd hc

@[simp] theorem bitDelayMax_tick (reset : Bool) :
    (t.tick reset data req).bitDelayMax = t.bitDelayMax := by
  unfold tick
  split_ifs <;> rfl

end UartTx

/-! ## The receiver, branch by branch -/

namespace UartRx

variable (r : UartRx) {serial consumed : Bool}

theorem tick_wait (h : r.bitDelay < r.bitDelayMax) :
    r.tick false serial consumed =
      { r with bitDelay := r.bitDelay + 1#16, dataFlag := r.dataFlag && !consumed } := by
  cases consumed <;> simp [tick, h]

theorem tick_sample (hd : ¬r.bitDelay < r.bitDelayMax) (hc : r.bitCount < bitCountMax) :
    r.tick false serial consumed =
      { r with
        bitDelay := 0#16
        bitCount := r.bitCount + 1#4
        shift := r.newShift serial
        dataBuf := if r.bitCount = 7#4 then r.newShift serial else r.dataBuf
        dataFlag := decide (r.bitCount = 7#4) || (r.dataFlag && !consumed)
        checksum := r.checksum +
          if r.bitCount = 7#4 then (r.newShift serial).setWidth 32 else 0#32 } := by
  by_cases h7 : r.bitCount = 7#4
  · cases consumed <;> simp [tick, hd, h7, newShift, bitCountMax]
  · cases consumed <;> simp [tick, hd, hc, h7, newShift]

theorem tick_between (hd : ¬r.bitDelay < r.bitDelayMax) (hc : ¬r.bitCount < bitCountMax) :
    r.tick false serial consumed =
      { r with
        bitDelay := if serial then r.bitDelay else 0#16
        bitCount := if serial then r.bitCount else 0#4
        dataFlag := r.dataFlag && !consumed } := by
  cases consumed <;> cases serial <;> simp [tick, hd, hc]

/-- The byte `tick` stores into `data_buf_`, if it samples the last data bit. -/
def stored (serial : Bool) : Option (BitVec 8) :=
  if r.bitDelay < r.bitDelayMax then none
  else if r.bitCount = 7#4 then some (r.newShift serial)
  else none

theorem stored_eq_some_iff {b : BitVec 8} :
    r.stored serial = some b ↔
      ¬r.bitDelay < r.bitDelayMax ∧ r.bitCount = 7#4 ∧ r.newShift serial = b := by
  unfold stored
  split_ifs <;> simp [*]

/-- A stored byte is in the buffer, flagged, and added to the checksum. -/
theorem tick_of_stored (consumed : Bool) {b : BitVec 8} (h : r.stored serial = some b) :
    (r.tick false serial consumed).dataBuf = b ∧
      (r.tick false serial consumed).dataFlag = true ∧
      (r.tick false serial consumed).checksum = r.checksum + b.setWidth 32 := by
  obtain ⟨hd, hc, rfl⟩ := r.stored_eq_some_iff.mp h
  rw [r.tick_sample hd (by rw [hc]; decide)]
  simp [hc]

/-- Otherwise the buffer and the checksum stay, and no flag is raised. -/
theorem tick_of_stored_none (h : r.stored serial = none) :
    (r.tick false serial consumed).dataBuf = r.dataBuf ∧
      (r.tick false serial consumed).dataFlag = (r.dataFlag && !consumed) ∧
      (r.tick false serial consumed).checksum = r.checksum := by
  by_cases hd : r.bitDelay < r.bitDelayMax
  · rw [r.tick_wait hd]
    exact ⟨rfl, rfl, rfl⟩
  · have h7 : r.bitCount ≠ 7#4 := by
      intro h7
      simp [stored, hd, h7] at h
    by_cases hc : r.bitCount < bitCountMax
    · rw [r.tick_sample hd hc]
      simp [h7]
    · rw [r.tick_between hd hc]
      exact ⟨rfl, rfl, rfl⟩

/-- `get_valid` rises exactly when a byte is stored. -/
theorem stored_isSome_iff :
    (r.stored serial).isSome ↔
      r.getValid = false ∧ (r.tick false serial consumed).getValid = true := by
  simp only [getValid, beq_eq_false_iff_ne, beq_iff_eq]
  by_cases hd : r.bitDelay < r.bitDelayMax
  · rw [r.tick_wait hd, stored, if_pos hd]
    simp
  · rw [stored, if_neg hd]
    by_cases hc : r.bitCount < bitCountMax
    · rw [r.tick_sample hd hc]
      have hsucc : r.bitCount + 1#4 = 8#4 ↔ r.bitCount = 7#4 := by
        rw [← BitVec.toNat_inj, ← @BitVec.toNat_inj _ r.bitCount]
        have := r.bitCount.isLt
        simp only [BitVec.toNat_add, BitVec.toNat_ofNat]
        omega
      by_cases h7 : r.bitCount = 7#4 <;> simp [h7, hsucc]
    · rw [r.tick_between hd hc]
      have h7 : r.bitCount ≠ 7#4 := by
        intro h7
        exact hc (by rw [h7]; decide)
      cases serial <;> simp [h7]

@[simp] theorem bitDelayMax_tick (reset : Bool) :
    (r.tick reset serial consumed).bitDelayMax = r.bitDelayMax := by
  unfold tick
  cases consumed <;> dsimp only <;> split_ifs <;> rfl

end UartRx

end Pinwheel
