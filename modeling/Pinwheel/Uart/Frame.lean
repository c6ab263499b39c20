import Pinwheel.Uart.Handshake
import Pinwheel.Uart.Loopback

/-!
# Frames at full rate

A transmitter that is always offered a byte counts its bits from 0 to
`bit_count_done`, which is 10 and not the last of ten bits: a frame has eleven bit
times, the last two of them stop bits.
-/

namespace Pinwheel

open Clocked

namespace UartTx

variable (bytes : ℕ → BitVec 8) (t : UartTx)

/-- The transmitter after `n` clocks with `send_request` held, and `bytes` offered. -/
def offered (n : ℕ) : UartTx := run (fun b t ↦ t.tick false b true) bytes t n

/-- The byte that is loaded in clock `n`. -/
def loads (n : ℕ) : Option (BitVec 8) := (t.offered bytes n).loaded (bytes n) true

/-- The bit on the line in clock `n`. -/
def line (n : ℕ) : Bool := (t.offered bytes n).getSerial

/-- Every load starts a frame: the start bit, the eight data bits and the given number of
stop bits are on the line for `N` clocks each, and then the next byte is loaded. -/
def Framed (N stops : ℕ) : Prop :=
  ∀ n b, t.loads bytes n = some b →
    (∀ j < (9 + stops) * N, t.line bytes (n + 1 + j) = frameBit b (j / N)) ∧
      (∀ m, n < m → m < n + (9 + stops) * N → t.loads bytes m = none) ∧
      (t.loads bytes (n + (9 + stops) * N)).isSome

/-- The clocks per bit that the counters have. -/
def bitTime : ℕ := t.bitDelayMax.toNat + 1

variable {bytes t} {n : ℕ} {b : BitVec 8}

theorem offered_succ (n : ℕ) :
    t.offered bytes (n + 1) = (t.offered bytes n).tick false (bytes n) true := rfl

theorem bitDelayMax_offered (n : ℕ) : (t.offered bytes n).bitDelayMax = t.bitDelayMax :=
  run_invariant (P := fun t' : UartTx ↦ t'.bitDelayMax = t.bitDelayMax) rfl
    (fun _ t' h ↦ (t'.bitDelayMax_tick false).trans h) n

theorem InRange.offered (h : t.InRange) (n : ℕ) : (t.offered bytes n).InRange :=
  run_invariant h (fun _ _ hs ↦ hs.tick false) n

/-! ## One frame -/

theorem At.offered_wait {c : ℕ} (h : (t.offered bytes n).At c 0 b) {d : ℕ} (hd : d < t.bitTime) :
    (t.offered bytes (n + d)).At c d b := by
  induction d with
  | zero => exact h
  | succ d ih =>
    rw [← Nat.add_assoc, offered_succ]
    refine (ih (Nat.lt_of_succ_lt hd)).wait ?_
    rw [bitDelayMax_offered]
    exact Nat.lt_of_succ_lt_succ hd

/-- The bits follow one another at the distance of the bit time. -/
theorem At.offered_bit (h : (t.offered bytes n).At 0 0 b) {c : ℕ} (hc : c ≤ 10) :
    (t.offered bytes (n + c * t.bitTime)).At c 0 b := by
  induction c with
  | zero => rwa [Nat.zero_mul]
  | succ c ih =>
    have hend := (ih (Nat.le_of_succ_le hc)).offered_wait (Nat.lt_succ_self t.bitDelayMax.toNat)
    have hnext :
        (t.offered bytes (n + c * t.bitTime + t.bitDelayMax.toNat + 1)).At (c + 1) 0 b := by
      rw [offered_succ]
      refine At.next ?_ hc _ _
      rw [bitDelayMax_offered]
      exact hend
    rwa [Nat.add_assoc, Nat.add_assoc, ← bitTime, ← Nat.succ_mul] at hnext

theorem bitTime_pos : 0 < t.bitTime := Nat.succ_pos _

/-- The eleven bit times are counted from 0 to 10. -/
theorem div_bitTime_le {j : ℕ} (hj : j < 11 * t.bitTime) : j / t.bitTime ≤ 10 :=
  Nat.lt_succ_iff.mp ((Nat.div_lt_iff_lt_mul bitTime_pos).mpr hj)

/-- **Where the transmitter is** in each of the eleven bit times after a load. -/
theorem at_of_loads (h : t.loads bytes n = some b) {j : ℕ} (hj : j < 11 * t.bitTime) :
    (t.offered bytes (n + 1 + j)).At (j / t.bitTime) (j % t.bitTime) b := by
  have hstart : (t.offered bytes (n + 1)).At 0 0 b := At.of_loaded h
  have hbit := hstart.offered_bit (div_bitTime_le hj)
  have hat := hbit.offered_wait (Nat.mod_lt j bitTime_pos)
  rwa [Nat.add_assoc, Nat.mul_comm, Nat.div_add_mod] at hat

/-- The next load comes in the last clock of the second stop bit, not before. -/
theorem At.loads_isSome_iff {j : ℕ} (hj : j < 11 * t.bitTime)
    (h : (t.offered bytes n).At (j / t.bitTime) (j % t.bitTime) b) :
    (t.loads bytes n).isSome ↔ j + 1 = 11 * t.bitTime := by
  have hdiv := Nat.div_add_mod j t.bitTime
  have hmod : j % t.bitTime < t.bitTime := Nat.mod_lt j bitTime_pos
  have hle : j / t.bitTime ≤ 10 := div_bitTime_le hj
  have hten : bitCountDone.toNat = 10 := rfl
  rw [loads, loaded_isSome_iff_canLoad, eq_self_iff_true, and_true, CanLoad, BitVec.lt_def,
    BitVec.lt_def, hten, bitDelayMax_offered, h.count, h.delay, Nat.not_lt, Nat.not_lt]
  have hmax : t.bitTime = t.bitDelayMax.toNat + 1 := rfl
  constructor
  · rintro ⟨hd, hc⟩
    rw [Nat.le_antisymm hle hc] at hdiv
    omega
  · intro hlast
    have hlt : t.bitTime * 10 ≤ j := by omega
    have hbit : 10 ≤ j / t.bitTime :=
      (Nat.le_div_iff_mul_le bitTime_pos).mpr (by rwa [Nat.mul_comm])
    rw [Nat.le_antisymm hle hbit] at hdiv
    exact ⟨by omega, hbit⟩

/-- **A frame has eleven bit times**: one start bit, eight data bits and two stop bits. -/
theorem framed_bitTime (t : UartTx) (bytes : ℕ → BitVec 8) : t.Framed bytes t.bitTime 2 := by
  intro n b h
  have hat : ∀ j < 11 * t.bitTime, (t.offered bytes (n + 1 + j)).At (j / t.bitTime)
      (j % t.bitTime) b := fun j hj ↦ at_of_loads h hj
  have hpos : 0 < 11 * t.bitTime := Nat.mul_pos (by decide) bitTime_pos
  refine ⟨fun j hj ↦ (hat j hj).serial, fun m hlt hm ↦ ?_, ?_⟩
  · obtain ⟨j, rfl⟩ := Nat.exists_eq_add_of_le (Nat.succ_le_of_lt hlt)
    have hj : j + 1 < 11 * t.bitTime := by omega
    rw [← Option.not_isSome_iff_eq_none, (hat j (by omega)).loads_isSome_iff (by omega)]
    exact Nat.ne_of_lt hj
  · obtain ⟨j, hj⟩ := Nat.exists_eq_succ_of_ne_zero (Nat.ne_of_gt hpos)
    have hlast := ((hat j (by omega)).loads_isSome_iff (by omega)).mpr hj.symm
    rwa [show n + 1 + j = n + (9 + 2) * t.bitTime by omega] at hlast

/-! ## All frames -/

/-- A transmitter that is always offered a byte loads one. -/
theorem InRange.exists_loads (h : t.InRange) (bytes : ℕ → BitVec 8) :
    ∃ n b, t.loads bytes n = some b := by
  obtain ⟨n, -, -, hn⟩ := exists_emit (e := t.loads bytes) (n := 0)
    (fun m ↦ (t.offered bytes m).untilIdle) fun m _ _ hnone ↦ by
      have hbusy : (t.offered bytes m).getIdle = false := by
        rw [← Bool.not_eq_true]
        intro hi
        exact Option.some_ne_none _ ((loaded_of_idle hi).symm.trans hnone)
      have := (h.offered m).untilIdle_tick hnone hbusy
      rw [offered_succ]
      omega
  obtain ⟨b, hb⟩ := Option.isSome_iff_exists.mp hn
  exact ⟨n, b, hb⟩

/-- The distance of the loads tells the frames of two kinds apart. -/
theorem Framed.length_eq {N N' stops stops' : ℕ} (h : t.Framed bytes N stops)
    (h' : t.Framed bytes N' stops') (hN : 0 < (9 + stops) * N) (hN' : 0 < (9 + stops') * N')
    (hl : t.loads bytes n = some b) : (9 + stops) * N = (9 + stops') * N' := by
  obtain ⟨-, hnone, hsome⟩ := h n b hl
  obtain ⟨-, hnone', hsome'⟩ := h' n b hl
  rcases Nat.lt_trichotomy ((9 + stops) * N) ((9 + stops') * N') with hlt | heq | hlt
  · rw [hnone' _ (Nat.lt_add_of_pos_right hN) (Nat.add_lt_add_left hlt n)] at hsome
    exact absurd hsome Bool.false_ne_true
  · exact heq
  · rw [hnone _ (Nat.lt_add_of_pos_right hN') (Nat.add_lt_add_left hlt n)] at hsome'
    exact absurd hsome' Bool.false_ne_true

theorem bitDelayMax_states (inputs : ℕ → TxIn) (t : UartTx) (n : ℕ) :
    (t.states inputs n).bitDelayMax = t.bitDelayMax :=
  run_invariant (P := fun t' : UartTx ↦ t'.bitDelayMax = t.bitDelayMax) rfl
    (fun i t' h ↦ (t'.bitDelayMax_tick i.reset).trans h) n

/-- The constructor stores the clocks per bit, less one, in 16 bits. -/
theorem bitTime_init {clockRate baudRate : ℕ} (h : 0 < clockRate / baudRate) :
    (init clockRate baudRate).bitTime = (clockRate / baudRate - 1) % 65536 + 1 := by
  have hmax : (init clockRate baudRate).bitDelayMax =
      BitVec.ofNat 16 (clockRate / baudRate) - 1#16 := rfl
  rw [bitTime, hmax, BitVec.toNat_sub, BitVec.toNat_ofNat, BitVec.toNat_ofNat]
  omega

/-- **The frames are one bit time too long**, for all rates and all bytes, from every
state that a transmitter of these rates can be in: there is one stop bit more than the
one of the comment. -/
theorem frame_has_two_stop_bits {clockRate baudRate : ℕ} (hb : 1 ≤ baudRate)
    (hc : baudRate ≤ clockRate) (inputs : ℕ → TxIn) (k : ℕ) (bytes : ℕ → BitVec 8) :
    ((init clockRate baudRate).states inputs k).Framed bytes
        ((clockRate / baudRate - 1) % 65536 + 1) 2 ∧
      ¬((init clockRate baudRate).states inputs k).Framed bytes (clockRate / baudRate) 1 := by
  have hN : 0 < clockRate / baudRate := Nat.div_pos hc hb
  have htime : ((init clockRate baudRate).states inputs k).bitTime =
      (clockRate / baudRate - 1) % 65536 + 1 := by
    rw [← bitTime_init hN, bitTime, bitDelayMax_states, bitTime]
  have htrue := framed_bitTime ((init clockRate baudRate).states inputs k) bytes
  rw [htime] at htrue
  refine ⟨htrue, fun hfalse ↦ ?_⟩
  obtain ⟨n, b, hl⟩ := ((inRange_init clockRate baudRate).states inputs k).exists_loads bytes
  have hlen := hfalse.length_eq htrue (by omega) (by omega) hl
  omega

/-- At 115200 baud with a clock of 12 MHz. -/
theorem frame_has_two_stop_bits_usual :
    (init 12000000 115200).Framed (fun _ ↦ 0x41#8) 104 2 ∧
      ¬(init 12000000 115200).Framed (fun _ ↦ 0x41#8) 104 1 :=
  @frame_has_two_stop_bits 12000000 115200 (by decide) (by decide)
    (fun _ ↦ ⟨false, 0#8, false⟩) 0 fun _ ↦ 0x41#8

/-- At one clock per bit the second byte is loaded eleven clocks after the first. -/
theorem frame_takes_eleven :
    let t := init 1 1
    let bytes : ℕ → BitVec 8 := fun _ ↦ 0x41#8
    t.loads bytes 0 = some 0x41#8 ∧ t.loads bytes 10 = none ∧ t.loads bytes 11 = some 0x41#8 ∧
      ¬t.Framed bytes 1 1 := by
  intro t bytes
  have hfirst : t.loads bytes 0 = some 0x41#8 := by decide
  have hten : t.loads bytes 10 = none := by decide
  refine ⟨hfirst, hten, by decide, fun h ↦ ?_⟩
  have hnext := (h 0 _ hfirst).2.2
  rw [show 0 + (9 + 1) * 1 = 10 from rfl, hten] at hnext
  exact Bool.false_ne_true hnext

end UartTx

end Pinwheel
