import Mathlib.Data.BitVec
import Mathlib.Tactic.IntervalCases
import Pinwheel.Lib.Transit
import Pinwheel.Uart.Branches

/-!
# The serial link

The receiver listens to the transmitter's line, which it samples before the
transmitter ticks, as in `pinwheel_soc::tock`.  Both count `N = bitDelayMax + 1`
clocks per bit.  The receiver follows the transmitter's pair of counters with a
delay of one clock, for the ten bit times from the start bit to the first stop
bit; `InFlight` says so, and everything else follows from it.
-/

namespace Pinwheel

open Clocked

/-! ## The link -/

/-- A transmitter and the receiver on its line. -/
structure Link where
  tx : UartTx
  rx : UartRx

/-- What the link receives in one clock. -/
structure LinkIn where
  sendData : BitVec 8
  sendRequest : Bool
  byteConsumed : Bool

namespace Link

/-- One clock: the receiver samples the line before the transmitter ticks. -/
def tick (reset : Bool) (i : LinkIn) (l : Link) : Link where
  rx := l.rx.tick reset l.tx.getSerial i.byteConsumed
  tx := l.tx.tick reset i.sendData i.sendRequest

/-- The byte the transmitter loads in this clock. -/
def loaded (i : LinkIn) (l : Link) : Option (BitVec 8) := l.tx.loaded i.sendData i.sendRequest

/-- The byte the receiver stores in this clock. -/
def stored (l : Link) : Option (BitVec 8) := l.rx.stored l.tx.getSerial

end Link

/-! ## The phase invariant -/

/-- The bits of a frame, in the order of transmission. -/
def frameBit (b : BitVec 8) (k : ℕ) : Bool :=
  if k = 0 then false else if k ≤ 8 then b.getLsbD (k - 1) else true

namespace UartTx

/-- The transmitter is in clock `d` of bit `c` of the frame of `b`. -/
structure At (t : UartTx) (c d : ℕ) (b : BitVec 8) : Prop where
  count : t.bitCount.toNat = c
  delay : t.bitDelay.toNat = d
  shift : ∀ i ≤ 8, t.shift.getLsbD i = frameBit b (c + i)

/-- The transmitter sends stop bits only. -/
structure Quiet (t : UartTx) : Prop where
  count : 10 ≤ t.bitCount.toNat
  serial : t.getSerial = true

variable {t : UartTx} {c d : ℕ} {b data : BitVec 8} {req : Bool}

theorem At.serial (h : t.At c d b) : t.getSerial = frameBit b c := h.shift 0 (by omega)

theorem At.loaded (h : t.At c d b) (hc : c < 10) : t.loaded data req = none := by
  have hlt : t.bitCount < bitCountDone := by
    rw [BitVec.lt_def, h.count]
    exact hc
  simp [UartTx.loaded, hlt]

/-- Within a bit the transmitter only counts. -/
theorem At.wait (h : t.At c d b) (hd : d < t.bitDelayMax.toNat) :
    (t.tick false data req).At c (d + 1) b := by
  have hlt : t.bitDelay < t.bitDelayMax := by
    rw [BitVec.lt_def, h.delay]
    exact hd
  rw [t.tick_wait hlt]
  refine ⟨h.count, ?_, h.shift⟩
  have := h.delay
  have := t.bitDelayMax.isLt
  simp only [BitVec.toNat_add, BitVec.toNat_ofNat]
  omega

/-- At the end of a bit the next one is shifted out. -/
theorem At.next (h : t.At c t.bitDelayMax.toNat b) (hc : c < 10) (data : BitVec 8)
    (req : Bool) : (t.tick false data req).At (c + 1) 0 b := by
  have hcount := h.count
  have hlt : ¬t.bitDelay < t.bitDelayMax := by
    rw [BitVec.lt_def, h.delay]
    exact Nat.lt_irrefl _
  have hdone : t.bitCount < bitCountDone := by
    rw [BitVec.lt_def, hcount]
    exact hc
  rw [t.tick_shift hlt hdone]
  refine ⟨?_, rfl, fun i hi ↦ ?_⟩
  · simp only [BitVec.toNat_add, BitVec.toNat_ofNat]
    omega
  · rcases Nat.lt_or_ge i 8 with h8 | h8
    · have hbit := h.shift (i + 1) (by omega)
      have hone : (0x100#9).getLsbD i = false := by
        interval_cases i <;> rfl
      rw [BitVec.getLsbD_or, BitVec.getLsbD_ushiftRight, hone, Bool.or_false, Nat.add_comm 1 i,
        hbit, Nat.add_right_comm, Nat.add_assoc]
    · obtain rfl : i = 8 := by omega
      have hstop : frameBit b (c + 1 + 8) = true := by simp [frameBit]
      rw [hstop, BitVec.getLsbD_or]
      exact Bool.or_true _

/-- A load starts a frame. -/
theorem At.of_loaded (h : t.loaded data req = some b) : (t.tick false data req).At 0 0 b := by
  rw [t.tick_of_loaded h]
  refine ⟨rfl, rfl, fun i hi ↦ ?_⟩
  rcases Nat.eq_zero_or_pos i with rfl | hpos
  · simp [frameBit]
  · have h1 : ¬i < 1 := by omega
    have h9 : i < 9 := by omega
    simp [frameBit, hi, h1, h9, show i ≠ 0 by omega]

/-- Without a load the line stays high. -/
theorem Quiet.tick (h : t.Quiet) (hn : t.loaded data req = none) :
    (t.tick false data req).Quiet := by
  have hcount := h.count
  by_cases hd : t.bitDelay < t.bitDelayMax
  · rw [t.tick_wait hd]
    exact ⟨h.count, h.serial⟩
  · have hdone : ¬t.bitCount < bitCountDone := by
      rw [BitVec.lt_def]
      exact Nat.not_lt.mpr h.count
    have hreq : req = false := by
      simpa [UartTx.loaded, hd, hdone] using hn
    rw [hreq, t.tick_stop hd hdone]
    split
    · rename_i hmax
      rw [BitVec.lt_def] at hmax
      have : bitCountMax.toNat = 17 := rfl
      refine ⟨?_, h.serial⟩
      simp only [BitVec.toNat_add, BitVec.toNat_ofNat]
      omega
    · exact h

end UartTx

namespace UartRx

/-- The receiver is in clock `d` of its wait after `c` samples of the frame of `b`. -/
structure At (r : UartRx) (c d : ℕ) (b : BitVec 8) : Prop where
  count : r.bitCount.toNat = c
  delay : r.bitDelay.toNat = d
  shift : c ≤ 8 → ∀ i < c, r.shift.getLsbD (8 - c + i) = b.getLsbD i

/-- The receiver waits for a start bit. -/
structure Idle (r : UartRx) : Prop where
  count : r.bitCount = bitCountMax
  delay : r.bitDelay = r.bitDelayMax

variable {r : UartRx} {c d : ℕ} {b : BitVec 8} {serial consumed : Bool}

theorem newShift_getLsbD (r : UartRx) (serial : Bool) {i : ℕ} (hi : i < 8) :
    (r.newShift serial).getLsbD i = if i = 7 then serial else r.shift.getLsbD (i + 1) := by
  have hout : r.shift.getLsbD 8 = false := BitVec.getLsbD_of_ge _ _ (by omega)
  unfold newShift
  rw [BitVec.getLsbD_or, BitVec.getLsbD_ushiftRight, Nat.add_comm 1 i]
  by_cases h7 : i = 7
  · subst h7
    rw [hout]
    cases serial <;> rfl
  · rw [if_neg h7]
    have hzero : (if serial then 0x80#8 else 0#8).getLsbD i = false := by
      cases serial <;> interval_cases i <;> first | rfl | exact absurd rfl h7
    rw [hzero, Bool.false_or]

theorem Idle.stored (h : r.Idle) : r.stored serial = none := by
  have h7 : ¬r.bitCount = 7#4 := by
    rw [h.count]
    decide
  simp [UartRx.stored, h7]

/-- Both counters of an idle receiver are at their ends. -/
theorem Idle.stopped (h : r.Idle) : ¬r.bitDelay < r.bitDelayMax ∧ ¬r.bitCount < bitCountMax := by
  rw [h.delay, h.count]
  exact ⟨BitVec.lt_irrefl _, BitVec.lt_irrefl _⟩

/-- A high line leaves an idle receiver idle. -/
theorem Idle.high (h : r.Idle) (consumed : Bool) : (r.tick false true consumed).Idle := by
  obtain ⟨hd, hc⟩ := h.stopped
  rw [r.tick_between hd hc]
  exact ⟨h.count, h.delay⟩

/-- A low line starts the frame. -/
theorem Idle.low (h : r.Idle) : (r.tick false false consumed).At 0 0 b := by
  obtain ⟨hd, hc⟩ := h.stopped
  rw [r.tick_between hd hc]
  exact ⟨rfl, rfl, fun _ i hi ↦ absurd hi (Nat.not_lt_zero i)⟩

/-- Within a bit the receiver only counts. -/
theorem At.wait (h : r.At c d b) (hd : d < r.bitDelayMax.toNat) (serial consumed : Bool) :
    (r.tick false serial consumed).At c (d + 1) b ∧ r.stored serial = none := by
  have hlt : r.bitDelay < r.bitDelayMax := by
    rw [BitVec.lt_def, h.delay]
    exact hd
  refine ⟨?_, by simp [UartRx.stored, hlt]⟩
  rw [r.tick_wait hlt]
  refine ⟨h.count, ?_, h.shift⟩
  have := h.delay
  have := r.bitDelayMax.isLt
  simp only [BitVec.toNat_add, BitVec.toNat_ofNat]
  omega

theorem At.bit_ends (h : r.At c r.bitDelayMax.toNat b) : ¬r.bitDelay < r.bitDelayMax := by
  rw [BitVec.lt_def, h.delay]
  exact Nat.lt_irrefl _

/-- At the end of a bit the receiver samples the line, which carries the next
bit of the frame. -/
theorem At.sample (h : r.At c r.bitDelayMax.toNat b) (hc : c ≤ 8)
    (hs : serial = frameBit b (c + 1)) : (r.tick false serial consumed).At (c + 1) 0 b := by
  have hcount := h.count
  have hd := h.bit_ends
  have hlt : r.bitCount < bitCountMax := by
    rw [BitVec.lt_def, hcount]
    exact Nat.lt_succ_of_le hc
  rw [r.tick_sample hd hlt]
  refine ⟨?_, rfl, fun hc8 i hi ↦ ?_⟩
  · simp only [BitVec.toNat_add, BitVec.toNat_ofNat]
    omega
  · change (r.newShift serial).getLsbD _ = _
    rw [newShift_getLsbD r serial (by omega)]
    by_cases hlast : i = c
    · subst hlast
      rw [if_pos (by omega), hs, frameBit, if_neg (by omega), if_pos hc8, Nat.add_sub_cancel]
    · rw [if_neg (by omega), ← h.shift hc i (by omega)]
      congr 1
      omega

/-- Only the sample of the last data bit stores a byte, and it is the byte of
the frame. -/
theorem At.stored (h : r.At c r.bitDelayMax.toNat b) (hs : serial = frameBit b (c + 1)) :
    r.stored serial = if c = 7 then some b else none := by
  have hd := h.bit_ends
  have hcount : r.bitCount = 7#4 ↔ c = 7 := by
    rw [← BitVec.toNat_inj, h.count]
    rfl
  by_cases h7 : c = 7
  · subst h7
    rw [if_pos rfl, UartRx.stored, if_neg hd, if_pos (hcount.mpr rfl), Option.some_inj]
    refine BitVec.eq_of_getLsbD_eq fun i hi ↦ ?_
    rw [newShift_getLsbD r serial hi]
    by_cases hi7 : i = 7
    · subst hi7
      rw [if_pos rfl, hs]
      rfl
    · rw [if_neg hi7, ← h.shift (by omega) i (by omega)]
      congr 1
      omega
  · rw [if_neg h7, UartRx.stored, if_neg hd, if_neg (mt hcount.mp h7)]

end UartRx

namespace Link

/-- The transmitter is in clock `d` of bit `c` of the frame of `b`, and the
receiver is one clock behind. -/
structure InFlight (l : Link) (c d : ℕ) (b : BitVec 8) : Prop where
  tx : l.tx.At c d b
  start : c = 0 → d = 0 → l.rx.Idle
  edge : ∀ k, c = k + 1 → d = 0 → l.rx.At k l.rx.bitDelayMax.toNat b
  rest : ∀ e, d = e + 1 → l.rx.At c e b

/-- No frame is on the line. -/
structure Idle (l : Link) : Prop where
  tx : l.tx.Quiet
  rx : l.rx.Idle

/-- Both ends count the same number of clocks per bit. -/
def Matched (l : Link) : Prop := l.rx.bitDelayMax = l.tx.bitDelayMax

variable {l : Link} {i : LinkIn} {c d : ℕ} {b : BitVec 8}

theorem Matched.tick (h : l.Matched) (reset : Bool) : (l.tick reset i).Matched := by
  simpa [Matched, Link.tick] using h

/-- After a reset no frame is on the line. -/
theorem idle_reset (l : Link) (i : LinkIn) : (l.tick true i).Idle :=
  ⟨⟨by simp [Link.tick, UartTx.tick, UartTx.bitCountMax],
    by simp [Link.tick, UartTx.tick, UartTx.getSerial]⟩, ⟨rfl, rfl⟩⟩

/-- The receiver catches up with the transmitter's counters, and stores the byte
when it samples the last data bit. -/
theorem InFlight.follow (h : l.InFlight c d b) (hm : l.Matched) (hc : c ≤ 9)
    (hd : d ≤ l.tx.bitDelayMax.toNat) :
    (l.tick false i).rx.At c d b ∧
      l.stored = if c = 8 ∧ d = 0 then some b else none := by
  have hmax : l.rx.bitDelayMax.toNat = l.tx.bitDelayMax.toNat := by rw [hm]
  have hs := h.tx.serial
  cases d with
  | zero =>
    cases c with
    | zero =>
      refine ⟨?_, (h.start rfl rfl).stored⟩
      simp only [Link.tick, hs]
      exact (h.start rfl rfl).low
    | succ k =>
      have hat := h.edge k rfl rfl
      refine ⟨hat.sample (by omega) hs, ?_⟩
      rw [Link.stored, hat.stored hs]
      simp
  | succ e =>
    obtain ⟨hat, hnone⟩ := (h.rest e rfl).wait (by omega) l.tx.getSerial i.byteConsumed
    exact ⟨hat, by simpa [Link.stored] using hnone⟩

/-- Within a bit. -/
theorem InFlight.wait (h : l.InFlight c d b) (hm : l.Matched) (hc : c ≤ 9)
    (hd : d < l.tx.bitDelayMax.toNat) : (l.tick false i).InFlight c (d + 1) b where
  tx := h.tx.wait hd
  start := fun _ hd ↦ absurd hd (Nat.succ_ne_zero d)
  edge := fun _ _ hd ↦ absurd hd (Nat.succ_ne_zero d)
  rest := fun e he ↦ by
    obtain rfl := Nat.succ.inj he
    exact (h.follow hm hc (Nat.le_of_lt hd)).1

/-- From one bit to the next. -/
theorem InFlight.next (h : l.InFlight c d b) (hm : l.Matched) (hc : c < 9)
    (hd : d = l.tx.bitDelayMax.toNat) : (l.tick false i).InFlight (c + 1) 0 b where
  tx := by
    subst hd
    exact h.tx.next (by omega) _ _
  start := fun hc _ ↦ absurd hc (Nat.succ_ne_zero c)
  edge := fun k hk _ ↦ by
    obtain rfl := Nat.succ.inj hk
    have := (h.follow (i := i) hm (by omega) (Nat.le_of_eq hd)).1
    rwa [show (l.tick false i).rx.bitDelayMax.toNat = d by
      rw [hd, ← hm]; simp [Link.tick]]
  rest := fun _ he ↦ absurd he.symm (Nat.succ_ne_zero _)

/-- After the first stop bit both ends are free. -/
theorem InFlight.last (h : l.InFlight 9 d b) (hm : l.Matched)
    (hd : d = l.tx.bitDelayMax.toNat) : (l.tick false i).Idle := by
  subst hd
  have htx := h.tx.next (by omega) i.sendData i.sendRequest
  have hrx := (h.follow (i := i) hm (Nat.le_refl _) (Nat.le_refl _)).1
  refine ⟨⟨by rw [Link.tick, htx.count], htx.serial.trans rfl⟩, ⟨?_, ?_⟩⟩
  · exact BitVec.eq_of_toNat_eq hrx.count
  · refine BitVec.eq_of_toNat_eq (hrx.delay.trans ?_)
    rw [← hm]
    simp [Link.tick]

/-- Between frames, until a byte is loaded. -/
theorem Idle.quiet (h : l.Idle) (hn : l.loaded i = none) : (l.tick false i).Idle := by
  refine ⟨h.tx.tick hn, ?_⟩
  have := h.rx.high i.byteConsumed
  rwa [← h.tx.serial] at this

/-- A load starts a frame. -/
theorem Idle.load (h : l.Idle) (hl : l.loaded i = some b) : (l.tick false i).InFlight 0 0 b where
  tx := UartTx.At.of_loaded hl
  start := fun _ _ ↦ by
    have := h.rx.high i.byteConsumed
    rwa [← h.tx.serial] at this
  edge := fun k hk _ ↦ absurd hk.symm (Nat.succ_ne_zero k)
  rest := fun e he ↦ absurd he.symm (Nat.succ_ne_zero e)

theorem InFlight.loaded (h : l.InFlight c d b) (hc : c ≤ 9) : l.loaded i = none :=
  h.tx.loaded (by omega)

theorem Idle.stored (h : l.Idle) : l.stored = none := h.rx.stored

end Link

/-! ## Runs -/

namespace Link

variable (l : Link) (i₀ : LinkIn) (inputs : ℕ → LinkIn)

/-- The link after a reset and `n` clocks under a schedule of inputs. -/
def states (n : ℕ) : Link := run (Link.tick false) inputs (l.tick true i₀) n

/-- The byte loaded in clock `n`. -/
def loads (n : ℕ) : Option (BitVec 8) := (l.states i₀ inputs n).loaded (inputs n)

/-- The byte stored in clock `n`. -/
def stores (n : ℕ) : Option (BitVec 8) := (l.states i₀ inputs n).stored

/-- Clocks per bit. -/
def period : ℕ := l.tx.bitDelayMax.toNat + 1

/-- Clocks from a load to the store of the same byte: the receiver notices the
start bit one clock late and samples the last data bit eight bit times later. -/
def latency : ℕ := 8 * l.period + 1

theorem states_succ (n : ℕ) :
    l.states i₀ inputs (n + 1) = (l.states i₀ inputs n).tick false (inputs n) := rfl

theorem bitDelayMax_states (n : ℕ) :
    (l.states i₀ inputs n).tx.bitDelayMax = l.tx.bitDelayMax := by
  refine run_invariant (P := fun l' : Link ↦ l'.tx.bitDelayMax = l.tx.bitDelayMax) ?_ ?_ n
  · simp [Link.tick]
  · intro i l' h
    simpa [Link.tick] using h

variable {l i₀ inputs}

theorem matched_states (hm : l.Matched) (n : ℕ) : (l.states i₀ inputs n).Matched :=
  run_invariant (hm.tick true) (fun _ _ h ↦ h.tick false) n

/-- **The link sends frames**, and is idle between them. -/
theorem frames (hm : l.Matched) :
    Frames l.period 10 (10 * l.period) 8 0 (l.loads i₀ inputs) (l.stores i₀ inputs)
      (fun n ↦ (l.states i₀ inputs n).Idle) (fun n c d ↦ (l.states i₀ inputs n).InFlight c d) where
  period_pos := Nat.succ_pos _
  len_le := Nat.le_refl _
  outClock_lt := Nat.succ_pos _
  out_lt := by
    rw [period]
    omega
  start := idle_reset l i₀
  stay hidle hn := hidle.quiet hn
  take hidle hl := hidle.load hl
  wait {n} _ _ _ hin hc hd := by
    refine hin.wait (matched_states hm n) (Nat.le_of_lt_succ hc) ?_
    rw [bitDelayMax_states]
    exact Nat.lt_of_succ_lt_succ hd
  next {n} _ _ _ hin hc hd := by
    refine hin.next (matched_states hm n) (Nat.lt_of_succ_lt_succ hc) ?_
    rw [bitDelayMax_states]
    exact Nat.succ.inj hd
  done {n} c d _ hin hc hd he := by
    have hlast : c * l.period + d = 9 * l.period + l.tx.bitDelayMax.toNat := by
      rw [period] at he ⊢
      omega
    obtain ⟨rfl, hd'⟩ := (Frames.clock_eq_iff hd (Nat.lt_succ_self _)).mp hlast
    refine hin.last (matched_states hm n) ?_
    rw [bitDelayMax_states]
    exact hd'
  silent hidle := hidle.stored
  give {n} _ _ _ hin hc hd := by
    refine (hin.follow (i := i₀) (matched_states hm n) (Nat.le_of_lt_succ hc) ?_).2
    rw [bitDelayMax_states]
    exact Nat.le_of_lt_succ hd
  closed hin hc _ _ := hin.loaded (Nat.le_of_lt_succ hc)

/-- The checksum is the sum of the bytes stored so far. -/
theorem checksum_states (n : ℕ) :
    (l.states i₀ inputs n).rx.getChecksum =
      ((emitted (l.stores i₀ inputs) n).map (BitVec.setWidth 32)).sum := by
  induction n with
  | zero => rfl
  | succ n ih =>
    rw [states_succ]
    cases hs : l.stores i₀ inputs n with
    | none =>
      rw [emitted_succ_none hs, ← ih]
      exact (UartRx.tick_of_stored_none _ hs).2.2
    | some b =>
      rw [emitted_succ_some hs, List.map_append, List.sum_append, ← ih]
      rw [List.map_singleton, List.sum_singleton]
      exact (UartRx.tick_of_stored _ _ hs).2.2

/-- **The receiver recovers what the transmitter accepted.**  At any time the
bytes stored so far are the bytes loaded up to `latency` clocks ago, in the same
order; a byte is stored exactly when `get_valid` rises, it is then in the buffer
with the flag raised, and nothing else changes the buffer; and the checksum is
the sum of the bytes stored. -/
theorem receiver_recovers (hm : l.Matched) (n : ℕ) :
    emitted (l.stores i₀ inputs) n = emitted (l.loads i₀ inputs) (n - l.latency) ∧
      ((l.stores i₀ inputs n).isSome ↔
        (l.states i₀ inputs n).rx.getValid = false ∧
          (l.states i₀ inputs (n + 1)).rx.getValid = true) ∧
      (∀ b, l.stores i₀ inputs n = some b →
        (l.states i₀ inputs (n + 1)).rx.getDataBuf = b ∧
          (l.states i₀ inputs (n + 1)).rx.getDataFlag = true) ∧
      (l.stores i₀ inputs n = none →
        (l.states i₀ inputs (n + 1)).rx.getDataBuf = (l.states i₀ inputs n).rx.getDataBuf) ∧
      (l.states i₀ inputs n).rx.getChecksum =
        ((emitted (l.stores i₀ inputs) n).map (BitVec.setWidth 32)).sum := by
  refine ⟨(frames hm).transit.emitted_eq n,
    UartRx.stored_isSome_iff _, fun b hb ↦ ?_, fun hn ↦ ?_, checksum_states n⟩
  · have hst := UartRx.tick_of_stored _ (inputs n).byteConsumed hb
    exact ⟨hst.1, hst.2.1⟩
  · exact (UartRx.tick_of_stored_none _ hn).1

/-- A link at one clock per bit. -/
def fastLink : Link where
  tx := ⟨0#16, 0#16, 17#5, 0#9⟩
  rx := ⟨0#16, 0#16, 9#4, 0#8, 0#8, false, 0#32⟩

/-- A sender that always offers the letter A. -/
def sendA (_ : ℕ) : LinkIn := ⟨0x41#8, true, false⟩

theorem receiver_recovers_fastLink :
    emitted (fastLink.stores (sendA 0) sendA) 10 = [0x41#8] :=
  (@receiver_recovers fastLink (sendA 0) sendA rfl 10).1.trans rfl

end Link

end Pinwheel
